import Battlemap.Scene.Population
import Mathlib.Algebra.Ring.Parity
import Mathlib.Data.List.Basic
import Mathlib.Data.List.Induction

/-!
# `Battlemap.Proofs.Population`: what a scene registers

The boxes of a scene and then its meshes are its entries. `SceneEntry.IsBad` says which of them
cannot become solids: those with a layer bit above 31, with a payload that is not pairs of
hexadecimal digits, and meshes with a triangle that names a missing vertex. `SceneEntry.Gives`
says which solid another entry becomes: its placed bounds or all of its placed triangles, with
the data that it describes. Where a placement puts a point is written out there, coordinate by
coordinate (`Placement.image`), and so is the box around points (`Box.Surrounds`).
`SceneEntry.Blames` says which error a bad entry leads to. Data is checked before triangles,
and the layer bit before the payload.

Registering goes on up to the first bad entry. So what is added is one solid for each entry of
the longest prefix without a bad one. The solids from before and the settings stay, and the
error tells the kind of the entry that ended it and its place among the entries of that kind
(`populate_registers_prefix`).
-/

set_option autoImplicit false

namespace Battlemap

/-! ### Bytes as hexadecimal digits -/

namespace Hex

/-- The digits in lower case, in the order of their values. -/
def digits : List Char :=
  ['0', '1', '2', '3', '4', '5', '6', '7', '8', '9', 'a', 'b', 'c', 'd', 'e', 'f']

/-- A digit of either case. -/
def IsDigit (c : Char) : Prop := c.toLower ∈ digits

/-- The value of a digit. -/
def value (c : Char) : Nat := digits.idxOf c.toLower

/-- The text is pairs of digits. -/
def IsHex (text : List Char) : Prop := Even text.length ∧ ∀ c ∈ text, IsDigit c

/-- The digits of the text are the two halves of every byte, in order. -/
def Writes (text : List Char) (bytes : List UInt8) : Prop :=
  (∀ c ∈ text, IsDigit c) ∧
    text.map value = bytes.flatMap fun byte => [byte.toNat / 16, byte.toNat % 16]

instance (c : Char) : Decidable (IsDigit c) := inferInstanceAs (Decidable (_ ∈ _))
instance (text : List Char) : Decidable (IsHex text) :=
  have : Decidable (∀ c ∈ text, IsDigit c) := List.decidableBAll IsDigit text
  instDecidableAnd

/-- A character is read as a digit exactly if it is one, and then by its value. -/
theorem digit?_eq (c : Char) : digit? c = if IsDigit c then some (value c) else none := by
  have hascii : ∀ n < 128, digit? (Char.ofNat n)
      = if IsDigit (Char.ofNat n) then some (value (Char.ofNat n)) else none := by decide +kernel
  by_cases h : c.toNat < 128
  · simpa only [Char.ofNat_toNat] using hascii _ h
  · -- Beyond that there are neither digits nor letters with another case.
    have hle (d : Char) (hd : d.toNat < 128) : ¬ c ≤ d := by
      intro hcd
      have : c.toNat ≤ d.toNat := hcd
      omega
    have hlower : c.toLower = c := dif_neg fun hc => hle 'Z' (by decide) hc.2
    have hdigit : ¬ IsDigit c := by
      rw [IsDigit, hlower]
      intro hc
      have hdigits : ∀ d ∈ digits, d.toNat < 128 := by simp [digits]
      exact h (hdigits c hc)
    rw [if_neg hdigit, digit?, if_neg, if_neg, if_neg]
    all_goals exact fun hc => hle _ (by decide) hc.2

/-- A digit stands for less than sixteen. -/
theorem value_lt {c : Char} (h : IsDigit c) : value c < 16 := List.idxOf_lt_length_of_mem h

/-- The empty text writes no bytes, and nothing else does. -/
theorem writes_nil_iff {bytes : List UInt8} : Writes [] bytes ↔ bytes = [] := by
  cases bytes <;> simp [Writes]

/-- Two digits write a byte, and what follows writes the bytes behind it. -/
theorem writes_pair_iff {upper lower : Char} {rest : List Char} {bytes : List UInt8} :
    Writes (upper :: lower :: rest) bytes ↔ IsDigit upper ∧ IsDigit lower ∧
      ∃ tail, bytes = (16 * value upper + value lower).toUInt8 :: tail ∧ Writes rest tail := by
  constructor
  · rintro ⟨hdigits, hvalues⟩
    simp only [List.forall_mem_cons] at hdigits
    obtain ⟨hupper, hlower, hrest⟩ := hdigits
    cases bytes with
    | nil => simp at hvalues
    | cons byte tail =>
      simp only [List.map_cons, List.flatMap_cons, List.cons_append, List.nil_append,
        List.cons.injEq] at hvalues
      obtain ⟨hu, hl, htail⟩ := hvalues
      refine ⟨hupper, hlower, tail, ?_, hrest, htail⟩
      rw [hu, hl, Nat.div_add_mod]
      simp
  · rintro ⟨hupper, hlower, tail, rfl, hrest, htail⟩
    have hu := value_lt hupper
    have hl := value_lt hlower
    refine ⟨by simpa [hupper, hlower] using hrest, ?_⟩
    have hbyte : (16 * value upper + value lower).toUInt8.toNat
        = 16 * value upper + value lower :=
      (UInt8.toNat_ofNat' ..).trans (Nat.mod_eq_of_lt (by omega))
    simp only [List.map_cons, List.flatMap_cons, List.cons_append, List.nil_append, hbyte, htail,
      List.cons.injEq, and_true]
    omega

/-- Every byte is written by two digits. -/
theorem length_of_writes {text : List Char} {bytes : List UInt8} (h : Writes text bytes) :
    text.length = 2 * bytes.length := by
  have hlength := congrArg List.length h.2
  simpa [List.length_flatMap, List.map_const', Nat.mul_comm] using hlength

/-- Decoding goes on behind the bytes that have been read, which are kept in reverse. -/
theorem decodeOnto_eq_some_iff {read bytes : List UInt8} {text : List Char} :
    decodeOnto read text = some bytes ↔
      ∃ tail, bytes = read.reverse ++ tail ∧ Writes text tail := by
  fun_induction decodeOnto read text with
  | case1 read => simp [writes_nil_iff, eq_comm]
  | case2 read c =>
    -- A single digit writes no bytes, since every byte takes two.
    have hodd (tail : List UInt8) : ¬ Writes [c] tail := fun h => by
      have := length_of_writes h
      rw [List.length_singleton] at this
      omega
    simp [hodd]
  | case3 read upper lower rest u l hl hu ih =>
    rw [digit?_eq, Option.ite_none_right_eq_some, Option.some_inj] at hu hl
    obtain ⟨hupper, rfl⟩ := hu
    obtain ⟨hlower, rfl⟩ := hl
    rw [ih]
    simp only [writes_pair_iff, List.reverse_cons, List.append_assoc, List.singleton_append]
    constructor
    · rintro ⟨tail, rfl, htail⟩
      exact ⟨_, rfl, hupper, hlower, tail, rfl, htail⟩
    · rintro ⟨_, rfl, -, -, tail, rfl, htail⟩
      exact ⟨tail, rfl, htail⟩
  | case4 read upper lower rest hnone =>
    simp only [reduceCtorEq, writes_pair_iff, false_iff]
    rintro ⟨_, -, hupper, hlower, -⟩
    exact hnone _ _ (by rw [digit?_eq, if_pos hupper]) (by rw [digit?_eq, if_pos hlower])

/-- A text is decoded to the bytes that it writes. -/
theorem decode?_eq_some_iff {text : String} {bytes : List UInt8} :
    decode? text = some bytes ↔ Writes text.toList bytes := by
  simp [decode?, decodeOnto_eq_some_iff]

/-- All pairs of digits are the digits of some bytes. -/
theorem exists_writes_iff {text : List Char} : (∃ bytes, Writes text bytes) ↔ IsHex text := by
  constructor
  · rintro ⟨bytes, h⟩
    exact ⟨⟨bytes.length, by rw [length_of_writes h, Nat.two_mul]⟩, h.1⟩
  · rintro ⟨hlength, hdigits⟩
    induction text using List.twoStepInduction with
    | nil => exact ⟨[], writes_nil_iff.mpr rfl⟩
    | singleton c => simp at hlength
    | cons_cons upper lower rest ih _ =>
      simp only [List.forall_mem_cons] at hdigits
      obtain ⟨hupper, hlower, hrest⟩ := hdigits
      obtain ⟨tail, htail⟩ := ih (by simpa [parity_simps] using hlength) hrest
      exact ⟨_, writes_pair_iff.mpr ⟨hupper, hlower, tail, rfl, htail⟩⟩

/-- Only pairs of digits can be decoded. -/
theorem decode?_eq_none_iff {text : String} : decode? text = none ↔ ¬ IsHex text.toList := by
  rw [← exists_writes_iff, Option.eq_none_iff_forall_ne_some, not_exists]
  exact forall_congr' fun bytes => not_congr decode?_eq_some_iff

end Hex

/-! ### The data of a solid -/

namespace DataDescription

/-- No solid can have the data: its layer bit is too high, or its payload is not pairs of
hexadecimal digits. -/
def IsBad (d : DataDescription) : Prop :=
  31 < d.layerBit ∨ ∃ text ∈ d.payload, ¬ Hex.IsHex text.toList

instance (d : DataDescription) : Decidable d.IsBad := inferInstanceAs (Decidable (_ ∨ _))

/-- What is said of bad data. The layer bit is looked at first. -/
inductive Defect (d : DataDescription) : DataError → Prop
  | layerBit (h : 31 < d.layerBit) : Defect d (.layerBit d.layerBit)
  | payload {text : String} (hbit : d.layerBit ≤ 31) (htext : d.payload = some text)
    (h : ¬ Hex.IsHex text.toList) : Defect d (.payload text)

/-- The data that is described: a header on which nothing has been built yet, and the bytes of
the payload, none if no payload is given. -/
structure Describes (d : DataDescription) (data : LevelData) : Prop where
  header : data.header =
    { flags := if d.destructible then d.flags ||| destructibleFlag else d.flags
      instanceId := d.instanceId
      nameHash := d.name.elim 0 Battlemap.nameHash
      layerBit := d.layerBit
      kind := .notStructural
      position := 0
      integrity := 0 }
  payload : Hex.Writes (d.payload.getD "").toList data.payload

variable {d : DataDescription} {data : LevelData} {cause : DataError}

/-- Bad data has a defect. -/
theorem isBad_iff : d.IsBad ↔ ∃ cause, d.Defect cause := by
  constructor
  · intro h
    by_cases hbit : 31 < d.layerBit
    · exact ⟨_, .layerBit hbit⟩
    · obtain ⟨text, htext, hhex⟩ := h.resolve_left hbit
      exact ⟨_, .payload (UInt8.not_lt.mp hbit) htext hhex⟩
  · rintro ⟨_, h | ⟨-, htext, hhex⟩⟩
    · exact .inl h
    · exact .inr ⟨_, htext, hhex⟩

/-- The data is read if it is not bad, and otherwise its defect is reported. -/
theorem toLevelData_cases (d : DataDescription) :
    (∃ cause, d.toLevelData = .error cause ∧ d.Defect cause) ∨
      ¬ d.IsBad ∧ ∃ data, d.toLevelData = .ok data ∧ d.Describes data := by
  unfold toLevelData
  split
  case isTrue hbit => exact .inl ⟨_, rfl, .layerBit hbit⟩
  case isFalse hbit =>
    have hbit : ¬ 31 < d.layerBit := hbit
    -- No payload is read like an empty one.
    have hread : (d.payload.map Hex.decode?).getD (some []) = Hex.decode? (d.payload.getD "") := by
      cases d.payload <;> rfl
    rw [hread]
    split
    case h_1 hnone =>
      have hhex := Hex.decode?_eq_none_iff.mp hnone
      cases hpayload : d.payload with
      | none => exact absurd ⟨Even.zero, List.forall_mem_nil _⟩ (hpayload ▸ hhex)
      | some text =>
        rw [hpayload] at hhex
        exact .inl ⟨_, rfl, .payload (UInt8.not_lt.mp hbit) hpayload hhex⟩
    case h_2 payload hsome =>
      have hwrites := Hex.decode?_eq_some_iff.mp hsome
      refine .inr ⟨?_, _, rfl, ?_, hwrites⟩
      · rintro (h | ⟨text, htext, hhex⟩)
        · exact hbit h
        · rw [Option.mem_def.mp htext] at hwrites
          exact hhex (Hex.exists_writes_iff.mp ⟨payload, hwrites⟩)
      · cases d.destructible <;> cases d.name <;> rfl

end DataDescription

/-! ### Placed points and their bounds -/

/-- Where a placement puts a point: scaled by `k`, turned about the vertical axis, and moved.
With the sine `s` and the cosine `c` of half the angle, `1 - 2s²` is the cosine of the angle
and `2cs` its sine, so `x` goes to `x cos + z sin` and `z` to `z cos - x sin`, while `y` stays.
The entries that vanish are combined from products with zero, and are multiplied and added like
the others: this tells in the signs of zeros, and where another factor is not finite. -/
def Placement.image (p : Placement) (v : Vec3) : Vec3 :=
  let half := p.rotationDegrees.toRadians * .half
  let s := half.sin
  let c := half.cos
  let k := p.scale
  let zero := Single.zero
  { x := (.one - (s * (s + s) + zero)) * k * v.x + (zero * (s + s) - c * zero) * k * v.y
      + (zero + c * (s + s)) * k * v.z + p.translation.x
    y := (zero * (s + s) + c * zero) * k * v.x + .one * k * v.y
      + (s * zero - c * zero) * k * v.z + p.translation.y
    z := (zero - c * (s + s)) * k * v.x + (s * zero + c * zero) * k * v.y
      + (.one - (zero + s * (s + s))) * k * v.z + p.translation.z }

/-- The affine map of a placement puts points where the placement does. -/
theorem Placement.apply_toAffineMap (p : Placement) : p.toAffineMap.apply = p.image := by
  funext v
  -- Of the products with the vanishing components of the quaternion only these are constant.
  have htwice : Single.zero + Single.zero = Single.zero := by decide +kernel
  have hproduct : Single.zero * Single.zero = Single.zero := by decide +kernel
  have hone : Single.one - Single.zero = Single.one := by decide +kernel
  show Vec3.mk _ _ _ = _
  simp only [toAffineMap, AffineMap.rotationColumns, Vec3.scale, htwice, hproduct, hone]
  rfl

/-- The box reaches along each axis from the least coordinate of the points to the greatest
one. -/
structure Box.Surrounds (b : Box) (points : List Vec3) : Prop where
  lower : ∀ axis ∈ [Vec3.x, Vec3.y, Vec3.z],
    axis b.min = (points.map axis).foldl Single.min .infinity
  upper : ∀ axis ∈ [Vec3.x, Vec3.y, Vec3.z],
    axis b.max = (points.map axis).foldl Single.max .negInfinity

/-- Merging points into a box moves each of its ends by each of their coordinates. -/
theorem Box.foldl_mergePoint (points : List Vec3) (b : Box) :
    points.foldl Box.mergePoint b =
      ⟨⟨(points.map Vec3.x).foldl Single.min b.min.x, (points.map Vec3.y).foldl Single.min b.min.y,
        (points.map Vec3.z).foldl Single.min b.min.z⟩,
       ⟨(points.map Vec3.x).foldl Single.max b.max.x, (points.map Vec3.y).foldl Single.max b.max.y,
        (points.map Vec3.z).foldl Single.max b.max.z⟩⟩ := by
  induction points generalizing b with
  | nil => rfl
  | cons p rest ih => exact ih (b.mergePoint p)

/-- The box that some points are merged into surrounds them. -/
theorem Box.ofPoints_surrounds (points : List Vec3) : (Box.ofPoints points).Surrounds points := by
  rw [ofPoints, foldl_mergePoint]
  constructor
  · simp [Box.empty, Vec3.splat]
  · simp [Box.empty, Vec3.splat]

/-- The eight corners of the box between the two points that are described. -/
def BoxDescription.corners (d : BoxDescription) : List Vec3 :=
  [d.min.z.min d.max.z, d.min.z.max d.max.z].flatMap fun z =>
    [d.min.y.min d.max.y, d.min.y.max d.max.y].flatMap fun y =>
      [d.min.x.min d.max.x, d.min.x.max d.max.x].map fun x => ⟨x, y, z⟩

/-! ### The triangles of a mesh -/

/-- The mesh has all the given triangles over the given vertices, with their corners and
planes. -/
structure Mesh.Has (m : Mesh) (vertices : List Vec3) (triangles : List TriangleIndices) :
    Prop where
  vertices_eq : m.vertices = vertices.toArray
  triangles_eq : m.polygons.map Polygon.indices = triangles.toArray
  polygon : ∀ p ∈ m.polygons, vertices[p.indices.a.toNat]? = some p.a ∧
    vertices[p.indices.b.toNat]? = some p.b ∧ vertices[p.indices.c.toNat]? = some p.c ∧
    p.plane = .throughPoints p.a p.b p.c

/-- The polygon of a triangle has the vertices that the triangle names for its corners. -/
theorem Mesh.polygon?_eq_some {vertices : List Vec3} {t : TriangleIndices} {p : Polygon}
    (h : Mesh.polygon? vertices.toArray t = some p) :
    p.indices = t ∧ vertices[t.a.toNat]? = some p.a ∧ vertices[t.b.toNat]? = some p.b ∧
      vertices[t.c.toNat]? = some p.c ∧ p.plane = .throughPoints p.a p.b p.c := by
  simp only [polygon?, Option.bind_eq_bind, Option.bind_eq_some_iff, List.getElem?_toArray,
    Option.pure_def, Option.some.injEq] at h
  obtain ⟨a, ha, b, hb, c, hc, rfl⟩ := h
  exact ⟨rfl, ha, hb, hc, rfl⟩

/-- A triangle has a polygon if it names vertices that are there. -/
theorem Mesh.exists_polygon? {vertices : List Vec3} {t : TriangleIndices}
    (h : t.isWithin vertices.length) : ∃ p, Mesh.polygon? vertices.toArray t = some p := by
  simp only [TriangleIndices.isWithin, Bool.and_eq_true, decide_eq_true_eq] at h
  obtain ⟨⟨ha, hb⟩, hc⟩ := h
  simp [polygon?, ha, hb, hc]

/-- Without a missing vertex no triangle is dropped. -/
theorem Mesh.ofTriangles_has {vertices : List Vec3} {triangles : List TriangleIndices}
    (h : ∀ t ∈ triangles, t.isWithin vertices.length) :
    (Mesh.ofTriangles vertices.toArray triangles.toArray).Has vertices triangles where
  vertices_eq := rfl
  triangles_eq := by
    rw [ofTriangles, List.filterMap_toArray, List.map_toArray, List.map_filterMap]
    congr 1
    -- Making the polygons drops no triangle, and each polygon keeps its indices.
    calc triangles.filterMap (fun t => (polygon? vertices.toArray t).map Polygon.indices)
        = triangles.filterMap some := List.filterMap_congr fun t ht => by
          obtain ⟨p, hp⟩ := exists_polygon? (h t ht)
          rw [hp, Option.map_some, (polygon?_eq_some hp).1]
      _ = triangles := List.filterMap_some
  polygon p hp := by
    rw [ofTriangles, List.filterMap_toArray, List.mem_toArray, List.mem_filterMap] at hp
    obtain ⟨t, -, hp⟩ := hp
    obtain ⟨rfl, hcorners⟩ := polygon?_eq_some hp
    exact hcorners

/-- Placing a mesh keeps its triangles. -/
theorem Mesh.transformed_has {vertices : List Vec3} {triangles : List TriangleIndices}
    (h : ∀ t ∈ triangles, t.isWithin vertices.length) (map : AffineMap) :
    ((Mesh.ofTriangles vertices.toArray triangles.toArray).transformed map).Has
      (vertices.map map.apply) triangles := by
  have hmesh := Mesh.ofTriangles_has h
  rw [transformed, hmesh.vertices_eq, hmesh.triangles_eq, List.map_toArray]
  exact Mesh.ofTriangles_has (by simpa only [List.length_map] using h)

/-! ### Entries of a scene -/

/-- A box or a mesh of a scene, with its place among those of its kind. -/
inductive SceneEntry where
  | box (index : Nat) (description : BoxDescription)
  | mesh (index : Nat) (description : MeshDescription)

/-- The boxes and then the meshes. -/
def Scene.entries (s : Scene) : List SceneEntry := s.boxes.mapIdx .box ++ s.meshes.mapIdx .mesh

/-- A corner of the triangle is not among the vertices. -/
def MeshDescription.Misses (d : MeshDescription) (t : TriangleIndices) : Prop :=
  d.vertices.length ≤ t.a.toNat ∨ d.vertices.length ≤ t.b.toNat ∨ d.vertices.length ≤ t.c.toNat

instance (d : MeshDescription) (t : TriangleIndices) : Decidable (d.Misses t) :=
  inferInstanceAs (Decidable (_ ∨ _))

/-- A triangle misses a vertex exactly if it is not within the vertices. -/
theorem MeshDescription.misses_iff {d : MeshDescription} {t : TriangleIndices} :
    d.Misses t ↔ t.isWithin d.vertices.length = false := by
  simp only [Misses, TriangleIndices.isWithin, Bool.and_eq_false_iff, decide_eq_false_iff_not,
    not_lt, or_assoc]

namespace SceneEntry

/-- The kind and the place of the entry as errors name them. -/
def title : SceneEntry → String
  | box index _ => "box " ++ toString index
  | mesh index _ => "mesh " ++ toString index

/-- No solid can be made of the entry. -/
def IsBad : SceneEntry → Prop
  | box _ d => d.data.IsBad
  | mesh _ d => d.data.IsBad ∨ ∃ t ∈ d.triangles, d.Misses t

instance : (e : SceneEntry) → Decidable e.IsBad
  | box _ d => inferInstanceAs (Decidable d.data.IsBad)
  | mesh _ _ => inferInstanceAs (Decidable (_ ∨ _))

/-- The solid that the entry stands for. -/
inductive Gives : SceneEntry → Solid → Prop
  /-- The box around the placed corners. -/
  | box {index : Nat} {d : BoxDescription} {bounds : Box} {data : LevelData}
    (hbounds : bounds.Surrounds (d.corners.map d.placement.image))
    (hdata : d.data.Describes data) : Gives (box index d) ⟨none, bounds, data⟩
  /-- All the triangles over the placed vertices, in the box around these. -/
  | mesh {index : Nat} {d : MeshDescription} {m : Mesh} {bounds : Box} {data : LevelData}
    (hmesh : m.Has (d.vertices.map d.placement.image) d.triangles)
    (hbounds : bounds.Surrounds (d.vertices.map d.placement.image))
    (hdata : d.data.Describes data) : Gives (mesh index d) ⟨some m, bounds, data⟩

/-- What is reported of a bad entry: a defect of its data, or else its first triangle that
misses a vertex. -/
inductive Blames : SceneEntry → SceneError → Prop
  | box {index : Nat} {d : BoxDescription} {cause : DataError} (h : d.data.Defect cause) :
    Blames (box index d) (.box index cause)
  | mesh {index : Nat} {d : MeshDescription} {cause : DataError} (h : d.data.Defect cause) :
    Blames (mesh index d) (.mesh index cause)
  | triangle {index : Nat} {d : MeshDescription} {before after : List TriangleIndices}
    {t : TriangleIndices} (hdata : ¬ d.data.IsBad) (hsplit : d.triangles = before ++ t :: after)
    (hbefore : ∀ u ∈ before, ¬ d.Misses u) (ht : d.Misses t) :
    Blames (mesh index d) (.triangle index t)

/-- The solid of the entry, or what is wrong with it. -/
def toSolid : SceneEntry → Except SceneError Solid
  | box index d => d.toSolid index
  | mesh index d => d.toSolid index

variable {e : SceneEntry}

/-- The message begins with the kind and the place of the entry. -/
theorem Blames.message_eq {error : SceneError} (h : e.Blames error) :
    ∃ cause, error.message = e.title ++ ": " ++ cause := by
  cases h with
  | box => exact ⟨_, rfl⟩
  | mesh => exact ⟨_, rfl⟩
  | @triangle index d before after t =>
    refine ⟨s!"triangle [{t.a}, {t.b}, {t.c}] references a missing vertex", ?_⟩
    have hcolon : ": triangle [" = ": " ++ "triangle [" := by decide
    simp only [SceneError.message, SceneError.cause?, SceneError.headline, title, hcolon,
      String.append_assoc, toString]

/-- A box has a solid, or its data is bad and an error blames it. -/
theorem toSolid_box_cases (index : Nat) (d : BoxDescription) :
    (∃ error, d.toSolid index = .error error ∧ (box index d).IsBad ∧ (box index d).Blames error) ∨
      ¬ (box index d).IsBad ∧
        ∃ solid, d.toSolid index = .ok solid ∧ (box index d).Gives solid := by
  rcases d.data.toLevelData_cases with ⟨cause, hcause, hdefect⟩ | ⟨hgood, data, hdata, hdescribes⟩
  · refine .inl ⟨.box index cause, ?_, DataDescription.isBad_iff.mpr ⟨_, hdefect⟩, .box hdefect⟩
    rw [BoxDescription.toSolid, hcause]
  · -- The corners in the order in which they are listed are those that the description has.
    refine .inr ⟨hgood, _, ?_, .box (Box.ofPoints_surrounds _) hdescribes⟩
    rw [BoxDescription.toSolid, hdata, ← d.placement.apply_toAffineMap]
    rfl

/-- A mesh has a solid, or it is bad and an error blames it: its data, or else the first of its
triangles that misses a vertex. -/
theorem toSolid_mesh_cases (index : Nat) (d : MeshDescription) :
    (∃ error, d.toSolid index = .error error ∧ (mesh index d).IsBad ∧
        (mesh index d).Blames error) ∨
      ¬ (mesh index d).IsBad ∧
        ∃ solid, d.toSolid index = .ok solid ∧ (mesh index d).Gives solid := by
  rcases d.data.toLevelData_cases with ⟨cause, hcause, hdefect⟩ | ⟨hgood, data, hdata, hdescribes⟩
  · refine .inl ⟨.mesh index cause, ?_, .inl (DataDescription.isBad_iff.mpr ⟨_, hdefect⟩),
      .mesh hdefect⟩
    rw [MeshDescription.toSolid, hcause]
  · rw [MeshDescription.toSolid, hdata]
    dsimp only
    split
    case h_1 t ht =>
      obtain ⟨ht, before, after, hsplit, hbefore⟩ := List.find?_eq_some_iff_append.mp ht
      -- The search stops at the first triangle that is not within the vertices.
      have hmisses : d.Misses t := MeshDescription.misses_iff.mpr (by simpa using ht)
      refine .inl ⟨_, rfl, .inr ⟨t, by simp [hsplit], hmisses⟩,
        .triangle hgood hsplit (fun u hu => ?_) hmisses⟩
      rw [MeshDescription.misses_iff]
      simpa using hbefore u hu
    case h_2 hnone =>
      have hwithin (t) (ht : t ∈ d.triangles) : t.isWithin d.vertices.length := by
        simpa using List.find?_eq_none.mp hnone t ht
      have hbad : ¬ (mesh index d).IsBad := by
        rintro (h | ⟨t, ht, hmisses⟩)
        · exact hgood h
        · rw [MeshDescription.misses_iff, hwithin t ht] at hmisses
          cases hmisses
      -- Placing makes the mesh a second time, and loses no triangle there either.
      have hmesh := Mesh.transformed_has hwithin d.placement.toAffineMap
      rw [d.placement.apply_toAffineMap] at hmesh
      refine .inr ⟨hbad, _, rfl, ?_⟩
      rw [Solid.ofMesh, Mesh.bounds, hmesh.vertices_eq, List.foldl_toArray]
      exact .mesh hmesh (Box.ofPoints_surrounds _) hdescribes

/-- An entry has a solid, or it is bad and an error blames it. -/
theorem toSolid_cases (e : SceneEntry) :
    (∃ error, e.toSolid = .error error ∧ e.IsBad ∧ e.Blames error) ∨
      ¬ e.IsBad ∧ ∃ solid, e.toSolid = .ok solid ∧ e.Gives solid := by
  cases e with
  | box index d => exact toSolid_box_cases index d
  | mesh index d => exact toSolid_mesh_cases index d

end SceneEntry

/-- The solids of a scene are those of its entries, in their order. -/
theorem Scene.solids_eq (s : Scene) : s.solids = s.entries.map SceneEntry.toSolid := by
  simp only [solids, entries, List.mapIdx_eq_zipIdx_map, List.map_append, List.map_map]
  rfl

/-! ### Registering the entries in turn -/

/-- The solids of the entries before the first bad one are registered. -/
theorem Builder.addAll_map_toSolid (entries : List SceneEntry) (b : Builder) :
    ∃ added : List Solid,
      List.Forall₂ SceneEntry.Gives (entries.takeWhile (¬ ·.IsBad)) added ∧
      (b.addAll (entries.map SceneEntry.toSolid)).1 = { b with solids := b.solids ++ added } ∧
      (entries.find? (·.IsBad) = none ∧ (b.addAll (entries.map SceneEntry.toSolid)).2 = none ∨
        ∃ bad error, entries.find? (·.IsBad) = some bad ∧ bad.Blames error ∧
          (b.addAll (entries.map SceneEntry.toSolid)).2 = some error) := by
  induction entries generalizing b with
  | nil => exact ⟨[], .nil, by simp [Builder.addAll], .inl ⟨rfl, rfl⟩⟩
  | cons e rest ih =>
    -- A bad entry ends the prefix and the registration alike.
    rcases e.toSolid_cases with ⟨error, herror, hbad, hblames⟩ | ⟨hgood, solid, hsolid, hgives⟩
    · refine ⟨[], ?_, ?_, .inr ⟨e, error, ?_, hblames, ?_⟩⟩
      · rw [List.takeWhile_cons_of_neg (by simpa using hbad)]
        exact .nil
      · simp [addAll, herror]
      · rw [List.find?_cons_of_pos (by simpa using hbad)]
      · rw [List.map_cons, herror, addAll]
    · obtain ⟨added, hadded, hbuilder, hresult⟩ := ih (b.add solid)
      rw [List.map_cons, hsolid, addAll, List.takeWhile_cons_of_pos (by simpa using hgood),
        List.find?_cons_of_neg (by simpa using hgood)]
      refine ⟨solid :: added, .cons hgives hadded, ?_, hresult⟩
      rw [hbuilder, add]
      simp

namespace Scene

/-- Populating a builder adds one solid for each entry of the scene before the first bad one. The
settings and the solids from before stay. No error is reported exactly if no entry is bad, and
otherwise the error is about the first bad entry, the kind and place of which it names. -/
theorem populate_registers_prefix (s : Scene) (b : Builder) :
    ∃ added : List Solid,
      List.Forall₂ SceneEntry.Gives (s.entries.takeWhile (¬ ·.IsBad)) added ∧
      (s.populate b).1.config = b.config ∧
      (s.populate b).1.solids = b.solids ++ added ∧
      ((s.populate b).2 = none ↔ ∀ e ∈ s.entries, ¬ e.IsBad) ∧
      (s.entries.find? (·.IsBad) = none ∧ (s.populate b).2 = none ∨
        ∃ bad error cause, s.entries.find? (·.IsBad) = some bad ∧
          (s.populate b).2 = some error ∧ bad.Blames error ∧
          error.message = bad.title ++ ": " ++ cause) := by
  obtain ⟨added, hadded, hbuilder, hresult⟩ := b.addAll_map_toSolid s.entries
  rw [← s.solids_eq] at hbuilder hresult
  refine ⟨added, hadded, by rw [populate, hbuilder], by rw [populate, hbuilder], ?_, ?_⟩
  · -- An error came up exactly if the search for a bad entry found one.
    have hbad : s.entries.find? (·.IsBad) = none ↔ ∀ e ∈ s.entries, ¬ e.IsBad := by
      simp [List.find?_eq_none]
    rw [populate, ← hbad]
    rcases hresult with ⟨hnone, herror⟩ | ⟨bad, error, hfind, -, herror⟩
    · rw [hnone, herror]
      simp
    · rw [hfind, herror]
      simp
  · rcases hresult with hnone | ⟨bad, error, hfind, hblames, herror⟩
    · exact .inl hnone
    · obtain ⟨cause, hcause⟩ := hblames.message_eq
      exact .inr ⟨bad, error, cause, hfind, herror, hblames, hcause⟩

end Scene

end Battlemap
