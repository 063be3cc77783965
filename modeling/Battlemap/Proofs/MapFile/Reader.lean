import Battlemap.MapFile.Bytes
import Battlemap.Proofs.Success
import Mathlib.Algebra.Group.Nat.Defs
import Mathlib.Data.List.Infix

/-!
# `Battlemap.Proofs.MapFile.Reader`: readers and the bytes they read

`Reader.Reads r bytes a` says that the reader `r` takes the value `a`
from `bytes` whatever follows them, and that it needs all of them: on
less, the file ends early. Readers in sequence read their bytes in
sequence (`Reads.bind`), so that for each record what its reader reads
follows from its fields. The first section has the readers of numbers,
each with the bytes of its writer.

`run_bind_eq_ok_iff` goes the other way: it takes a successful run of
readers in sequence apart.
-/

set_option autoImplicit false

namespace Battlemap

/-! ### Words and their bytes -/

/-- Bits that are shifted above the others are added to them. -/
theorem or_shiftLeft_mod {a b k w : Nat} (ha : a < 2 ^ k) (hb : b * 2 ^ k < 2 ^ w) :
    a ||| b <<< k % 2 ^ w = a + b * 2 ^ k := by
  rw [Nat.shiftLeft_eq, Nat.mod_eq_of_lt hb, ← Nat.shiftLeft_eq, Nat.or_comm,
    ← Nat.shiftLeft_add_eq_or_of_lt ha, Nat.shiftLeft_eq, Nat.add_comm]

/-- A 16-bit word is put together from its bytes. -/
theorem join_bytes_uint16 (n : UInt16) :
    n.toUInt8.toUInt16 ||| ((n >>> 8).toUInt8.toUInt16 <<< 8) = n := by
  have hn := n.toNat_lt
  rw [← UInt16.toNat_inj]
  simp only [UInt16.toNat_or, UInt16.toNat_shiftLeft, UInt8.toNat_toUInt16, UInt16.toNat_toUInt8,
    UInt16.toNat_shiftRight, show (8 : UInt16).toNat % 16 = 8 from rfl, Nat.shiftRight_eq_div_pow]
  rw [or_shiftLeft_mod (by omega) (by omega)]
  omega

/-- A 32-bit word is put together from its bytes. -/
theorem join_bytes_uint32 (n : UInt32) :
    n.toUInt8.toUInt32 ||| ((n >>> 8).toUInt8.toUInt32 <<< 8)
      ||| ((n >>> 16).toUInt8.toUInt32 <<< 16) ||| ((n >>> 24).toUInt8.toUInt32 <<< 24) = n := by
  have hn := n.toNat_lt
  rw [← UInt32.toNat_inj]
  simp only [UInt32.toNat_or, UInt32.toNat_shiftLeft, UInt8.toNat_toUInt32, UInt32.toNat_toUInt8,
    UInt32.toNat_shiftRight, show (8 : UInt32).toNat % 32 = 8 from rfl,
    show (16 : UInt32).toNat % 32 = 16 from rfl, show (24 : UInt32).toNat % 32 = 24 from rfl,
    Nat.shiftRight_eq_div_pow]
  rw [or_shiftLeft_mod (a := n.toNat % 2 ^ 8) (by omega) (by omega),
    or_shiftLeft_mod (k := 16) (by omega) (by omega), or_shiftLeft_mod (by omega) (by omega)]
  omega

namespace Reader

variable {α β : Type}

/-! ### Readers in sequence -/

/-- Readers in sequence succeed exactly if the first does, and the second
does on what the first leaves. -/
theorem run_bind_eq_ok_iff {r : Reader α} {f : α → Reader β} {bytes : List UInt8}
    {out : β × List UInt8} :
    (r >>= f).run bytes = .ok out ↔
      ∃ a rest, r.run bytes = .ok (a, rest) ∧ (f a).run rest = .ok out := by
  rw [StateT.run_bind, except_bind_eq_ok_iff]
  exact Prod.exists

/-- The reader takes the value from the bytes, whatever follows them, and
needs all of them. -/
structure Reads (r : Reader α) (bytes : List UInt8) (a : α) : Prop where
  whole : ∀ rest, r.run (bytes ++ rest) = .ok (a, rest)
  cut : ∀ front, front <+: bytes → front ≠ bytes → r.run front = .error .truncated

/-- To give a value, no bytes are read. -/
theorem Reads.pure (a : α) : Reads (Pure.pure a) [] a where
  whole _ := rfl
  cut _ hfront hne := absurd (List.prefix_nil.mp hfront) hne

/-- Readers in sequence read their bytes in sequence. -/
theorem Reads.bind {r : Reader α} {f : α → Reader β} {bytes more : List UInt8} {a : α} {b : β}
    (h : Reads r bytes a) (h' : Reads (f a) more b) : Reads (r >>= f) (bytes ++ more) b where
  whole rest := by
    rw [run_bind_eq_ok_iff]
    exact ⟨a, more ++ rest, by rw [List.append_assoc]; exact h.whole _, h'.whole rest⟩
  cut front hfront hne := by
    rw [StateT.run_bind]
    by_cases hle : bytes <+: front
    · -- The first reader gets its bytes, the second not all of its.
      obtain ⟨front', rfl⟩ := hle
      rw [List.prefix_append_right_inj] at hfront
      rw [h.whole]
      exact h'.cut front' hfront fun heq => hne (heq ▸ rfl)
    · -- The bytes end within those of the first reader.
      have hshort : front <+: bytes :=
        (List.prefix_or_prefix_of_prefix hfront (List.prefix_append _ _)).resolve_right hle
      rw [h.cut front hshort fun heq => hle (heq ▸ List.prefix_rfl)]
      rfl

/-- A reader that reads no more once it has its value. -/
theorem Reads.bind_pure {r : Reader α} {f : α → Reader β} {bytes : List UInt8} {a : α} {b : β}
    (h : Reads r bytes a) (hf : f a = Pure.pure b) : Reads (r >>= f) bytes b := by
  have hbind : Reads (r >>= f) (bytes ++ []) b := h.bind (hf ▸ .pure b)
  rwa [List.append_nil] at hbind

/-- A value computed from what was read. -/
theorem Reads.map {r : Reader α} {bytes : List UInt8} {a : α} (h : Reads r bytes a) (g : α → β) :
    Reads (do return g (← r)) bytes (g a) :=
  h.bind_pure rfl

/-- A reader that fails on fewer bytes than the given ones. -/
theorem Reads.of_short {r : Reader α} {bytes : List UInt8} {a : α}
    (whole : ∀ rest, r.run (bytes ++ rest) = .ok (a, rest))
    (short : ∀ front : List UInt8, front.length < bytes.length → r.run front = .error .truncated) :
    Reads r bytes a where
  whole := whole
  cut front hfront hne :=
    short front (Nat.lt_of_le_of_ne hfront.length_le fun heq => hne (hfront.eq_of_length heq))

/-! ### Numbers -/

/-- As many bytes as there are can be taken. -/
theorem reads_take (bytes : List UInt8) : Reads (take bytes.length) bytes bytes :=
  .of_short (fun rest => by simp [take, StateT.run]) fun front hshort => by
    simp [take, StateT.run, Nat.min_eq_right (Nat.le_of_lt hshort), Nat.ne_of_lt hshort]

/-- A byte is read back. -/
theorem reads_uint8 (n : UInt8) : Reads uint8 [n] n :=
  .of_short (fun _ => rfl) fun front hshort => by
    match front, hshort with
    | [], _ => rfl

/-- A word of 16 bits is read back from its bytes. -/
theorem reads_uint16 (n : UInt16) : Reads uint16 (bytesOfUInt16 n) n :=
  .of_short
    (fun rest => congrArg (fun m => Except.ok (m, rest)) (join_bytes_uint16 n))
    fun front hshort => by
      match front, hshort with
      | [], _ | [_], _ => rfl
      | _ :: _ :: _, hshort =>
        simp only [bytesOfUInt16, List.length_cons, List.length_nil] at hshort
        omega

/-- A word of 32 bits is read back from its bytes. -/
theorem reads_uint32 (n : UInt32) : Reads uint32 (bytesOfUInt32 n) n :=
  .of_short
    (fun rest => congrArg (fun m => Except.ok (m, rest)) (join_bytes_uint32 n))
    fun front hshort => by
      match front, hshort with
      | [], _ | [_], _ | [_, _], _ | [_, _, _], _ => rfl
      | _ :: _ :: _ :: _ :: _, hshort =>
        simp only [bytesOfUInt32, List.length_cons, List.length_nil] at hshort
        omega

/-- A signed word is read back from its bytes. -/
theorem reads_int32 (n : Int32) : Reads int32 (bytesOfInt32 n) n :=
  (reads_uint32 n.toUInt32).map UInt32.toInt32

/-- A single is read back with its pattern, NaNs included. -/
theorem reads_single (a : Single) : Reads single (bytesOfSingle a) a :=
  (reads_uint32 a.bits).map Single.mk

/-- A vector is read back component by component. -/
theorem reads_vec3 (v : Vec3) : Reads vec3 (bytesOfVec3 v) v := by
  rw [bytesOfVec3, List.append_assoc]
  exact (reads_single v.x).bind <| (reads_single v.y).bind <|
    (reads_single v.z).map (Vec3.mk v.x v.y)

/-- A plane is read back from its normal and its offset. -/
theorem reads_plane (p : Plane) : Reads plane (bytesOfPlane p) p :=
  (reads_vec3 p.normal).bind <| (reads_single p.offset).map (Plane.mk p.normal)

/-! ### Records in a row -/

/-- Records in a row are read onto what was read before. -/
theorem reads_manyOnto {record : Reader β} {write : α → List UInt8} {value : α → β} {xs : List α}
    (h : ∀ x ∈ xs, Reads record (write x) (value x)) (before : Array β) :
    Reads (manyOnto record xs.length before) (xs.flatMap write)
      (before ++ (xs.map value).toArray) := by
  induction xs generalizing before with
  | nil =>
    rw [List.map_nil, Array.append_empty]
    exact Reads.pure before
  | cons x xs ih =>
    have hrest := ih (fun y hy => h y (List.mem_cons_of_mem _ hy)) (before.push (value x))
    -- The next record goes behind those before it.
    rw [show before ++ ((x :: xs).map value).toArray
      = before.push (value x) ++ (xs.map value).toArray by simp]
    exact (h x List.mem_cons_self).bind hrest

/-- Records of one sort are read back one after the other. -/
theorem reads_many {record : Reader β} {write : α → List UInt8} {value : α → β} {xs : Array α}
    (h : ∀ x, Reads record (write x) (value x)) :
    Reads (many record xs.size) (xs.toList.flatMap write) (xs.map value) := by
  have hall := reads_manyOnto (fun x (_ : x ∈ xs.toList) => h x) #[]
  simpa [many, ← Array.toList_map] using hall

/-- Records that come back as they were. -/
theorem reads_many_self {record : Reader α} {write : α → List UInt8} {xs : Array α}
    (h : ∀ x, Reads record (write x) x) :
    Reads (many record xs.size) (xs.toList.flatMap write) xs := by
  have hall := @reads_many α α record write id xs h
  rwa [Array.map_id] at hall

end Reader

end Battlemap
