import Battlemap.MapFile.Codec
import Battlemap.Proofs.Consistency
import Battlemap.Proofs.MapFile.RoundTrip
import Mathlib.Tactic.IntervalCases

/-!
# `Battlemap.Proofs.MapFile.Canonical`: what was loaded is what is saved

`Reader.Spells r write` is the converse of `Reader.Reads`: whatever the
reader takes from the front of some bytes, hostile ones included, are the
bytes that the writer has for its value. Fields that only repeat what is
known (labels, record lengths, chunk lengths, counts) are pinned by the
checks of the readers, so nothing but the minor version is free.

`run_readBoard_eq_ok` puts the records together, and `load_canonical`
says what follows: a loaded map can be saved, and its file agrees with the
one that it was loaded from but for the minor version and for what stands
behind the last chunk. So two files with one map agree there, too.
-/

set_option autoImplicit false

namespace Battlemap

/-! ### Bytes and their words -/

/-- The bytes of a 16-bit word are those that it is put together from. -/
theorem bytesOfUInt16_join (b0 b1 : UInt8) :
    bytesOfUInt16 (b0.toUInt16 ||| (b1.toUInt16 <<< 8)) = [b0, b1] := by
  have h0 := b0.toNat_lt
  have h1 := b1.toNat_lt
  -- The shifted bytes do not overlap, so the word is their sum.
  have hword : (b0.toUInt16 ||| (b1.toUInt16 <<< 8)).toNat = b0.toNat + b1.toNat * 2 ^ 8 := by
    simp only [UInt16.toNat_or, UInt16.toNat_shiftLeft, UInt8.toNat_toUInt16,
      show (8 : UInt16).toNat % 16 = 8 from rfl]
    exact or_shiftLeft_mod (by omega) (by omega)
  simp only [bytesOfUInt16, List.cons.injEq, and_true, ← UInt8.toNat_inj, UInt16.toNat_toUInt8,
    UInt16.toNat_shiftRight, hword, show (8 : UInt16).toNat % 16 = 8 from rfl,
    Nat.shiftRight_eq_div_pow]
  omega

/-- The bytes of a 32-bit word are those that it is put together from. -/
theorem bytesOfUInt32_join (b0 b1 b2 b3 : UInt8) :
    bytesOfUInt32 (b0.toUInt32 ||| (b1.toUInt32 <<< 8) ||| (b2.toUInt32 <<< 16)
      ||| (b3.toUInt32 <<< 24)) = [b0, b1, b2, b3] := by
  have h0 := b0.toNat_lt
  have h1 := b1.toNat_lt
  have h2 := b2.toNat_lt
  have h3 := b3.toNat_lt
  -- As numbers the bytes do not overlap, so putting them together adds them up.
  have hword : (b0.toUInt32 ||| (b1.toUInt32 <<< 8) ||| (b2.toUInt32 <<< 16)
      ||| (b3.toUInt32 <<< 24)).toNat
      = b0.toNat + b1.toNat * 2 ^ 8 + b2.toNat * 2 ^ 16 + b3.toNat * 2 ^ 24 := by
    simp only [UInt32.toNat_or, UInt32.toNat_shiftLeft, UInt8.toNat_toUInt32,
      show (8 : UInt32).toNat % 32 = 8 from rfl, show (16 : UInt32).toNat % 32 = 16 from rfl,
      show (24 : UInt32).toNat % 32 = 24 from rfl]
    rw [or_shiftLeft_mod (a := b0.toNat) (by omega) (by omega),
      or_shiftLeft_mod (k := 16) (by omega) (by omega), or_shiftLeft_mod (by omega) (by omega)]
  simp only [bytesOfUInt32, List.cons.injEq, and_true, ← UInt8.toNat_inj, UInt32.toNat_toUInt8,
    UInt32.toNat_shiftRight, hword, show (8 : UInt32).toNat % 32 = 8 from rfl,
    show (16 : UInt32).toNat % 32 = 16 from rfl, show (24 : UInt32).toNat % 32 = 24 from rfl,
    Nat.shiftRight_eq_div_pow]
  omega

namespace Reader

variable {α β : Type}

/-- Whatever the reader takes are the bytes that `write` has for its value. -/
def Spells (r : Reader α) (write : α → List UInt8) : Prop :=
  ∀ ⦃bytes a rest⦄, r.run bytes = .ok (a, rest) → bytes = write a ++ rest

/-! ### Numbers -/

/-- What is taken is what the bytes begin with. -/
theorem run_take_eq_ok {count : Nat} {bytes taken rest : List UInt8}
    (h : (take count).run bytes = .ok (taken, rest)) :
    bytes = taken ++ rest ∧ taken.length = count := by
  simp only [take, StateT.run] at h
  split at h
  case isTrue hcount =>
    cases h
    exact ⟨(List.take_append_drop count bytes).symm, hcount⟩
  case isFalse => cases h

/-- A byte is spelled by itself. -/
theorem spells_uint8 : Spells uint8 fun n => [n] := by
  intro bytes n rest h
  match bytes, h with
  | _ :: _, h => cases h; rfl

/-- A word of 16 bits is spelled by its two bytes. -/
theorem spells_uint16 : Spells uint16 bytesOfUInt16 := by
  intro bytes n rest h
  match bytes, h with
  | b0 :: b1 :: _, h =>
    cases h
    rw [bytesOfUInt16_join]
    rfl

/-- A word of 32 bits is spelled by its four bytes. -/
theorem spells_uint32 : Spells uint32 bytesOfUInt32 := by
  intro bytes n rest h
  match bytes, h with
  | b0 :: b1 :: b2 :: b3 :: _, h =>
    cases h
    rw [bytesOfUInt32_join]
    rfl

/-- A value that is computed from what was read, by a function that can be
undone. -/
theorem Spells.map {r : Reader α} {write : α → List UInt8} {write' : β → List UInt8}
    (h : Spells r write) {f : α → β} (hf : ∀ a, write' (f a) = write a) :
    Spells (do return f (← r)) write' := by
  intro bytes b rest hrun
  obtain ⟨a, rest', ha, hb⟩ := run_bind_eq_ok_iff.mp hrun
  cases hb
  rw [h ha, hf]

/-- A signed word is spelled as the unsigned one with its pattern. -/
theorem spells_int32 : Spells int32 bytesOfInt32 :=
  spells_uint32.map fun _ => rfl

/-- A single is spelled by its pattern, NaNs included. -/
theorem spells_single : Spells single bytesOfSingle :=
  spells_uint32.map fun _ => rfl

/-- A vector is spelled component by component. -/
theorem spells_vec3 : Spells vec3 bytesOfVec3 := by
  intro bytes v rest h
  simp only [vec3, run_bind_eq_ok_iff] at h
  obtain ⟨x, _, hx, y, _, hy, z, _, hz, h⟩ := h
  cases h
  rw [spells_single hx, spells_single hy, spells_single hz]
  simp only [bytesOfVec3, List.append_assoc]

/-- A plane is spelled by its normal and its offset. -/
theorem spells_plane : Spells plane bytesOfPlane := by
  intro bytes p rest h
  simp only [plane, run_bind_eq_ok_iff] at h
  obtain ⟨normal, _, hnormal, offset, _, hoffset, h⟩ := h
  cases h
  rw [spells_vec3 hnormal, spells_single hoffset]
  simp only [bytesOfPlane, List.append_assoc]

/-! ### Records in a row -/

/-- Records that were read are spelled one after the other. -/
theorem run_manyOnto_eq_ok {record : Reader α} {write : α → List UInt8} (h : Spells record write)
    {count : Nat} {before xs : Array α} {bytes rest : List UInt8}
    (hrun : (manyOnto record count before).run bytes = .ok (xs, rest)) :
    ∃ read : List α, read.length = count ∧ xs = before ++ read.toArray ∧
      bytes = read.flatMap write ++ rest := by
  induction count generalizing before bytes with
  | zero =>
    cases hrun
    exact ⟨[], rfl, (Array.append_empty).symm, rfl⟩
  | succ count ih =>
    rw [manyOnto, run_bind_eq_ok_iff] at hrun
    obtain ⟨next, rest', hnext, hrun⟩ := hrun
    obtain ⟨read, hlength, hxs, hbytes⟩ := ih hrun
    refine ⟨next :: read, by rw [List.length_cons, hlength], by simp [hxs], ?_⟩
    rw [h hnext, hbytes, List.flatMap_cons, List.append_assoc]

/-- As many records are read as were asked for, and their bytes stand in a
row. -/
theorem run_many_eq_ok {record : Reader α} {write : α → List UInt8} (h : Spells record write)
    {count : Nat} {xs : Array α} {bytes rest : List UInt8}
    (hrun : (many record count).run bytes = .ok (xs, rest)) :
    xs.size = count ∧ bytes = xs.toList.flatMap write ++ rest := by
  obtain ⟨read, rfl, rfl, hbytes⟩ := run_manyOnto_eq_ok h hrun
  simpa using hbytes

/-- Every record of the array is one that was read. -/
theorem exists_run_of_mem_manyOnto {record : Reader α} {count : Nat} {before xs : Array α}
    {bytes rest : List UInt8} (hrun : (manyOnto record count before).run bytes = .ok (xs, rest))
    {a : α} (ha : a ∈ xs) :
    a ∈ before ∨ ∃ bytes' rest', record.run bytes' = .ok (a, rest') := by
  induction count generalizing before bytes with
  | zero =>
    cases hrun
    exact .inl ha
  | succ count ih =>
    rw [manyOnto, run_bind_eq_ok_iff] at hrun
    obtain ⟨next, rest', hnext, hrun⟩ := hrun
    rcases ih hrun with hbefore | hread
    · rcases Array.mem_push.mp hbefore with hbefore | rfl
      · exact .inl hbefore
      · exact .inr ⟨bytes, rest', hnext⟩
    · exact .inr hread

end Reader

namespace MapFile

open Reader (Spells spells_uint8 spells_uint16 spells_uint32 spells_int32 spells_single spells_vec3
  spells_plane run_bind_eq_ok_iff)

/-! ### Records -/

/-- A tile record has one spelling. -/
theorem spells_tile : Spells readTile bytesOfTile := by
  intro bytes t rest h
  simp only [readTile, run_bind_eq_ok_iff] at h
  obtain ⟨levelCount, _, hcount, levelStart, _, hstart, h⟩ := h
  cases h
  rw [spells_uint32 hcount, spells_uint32 hstart]
  simp only [bytesOfTile, List.append_assoc]

/-- A level record has one spelling. -/
theorem spells_level : Spells readLevel bytesOfLevel := by
  intro bytes l rest h
  simp only [readLevel, run_bind_eq_ok_iff] at h
  obtain ⟨floor, _, hfloor, ceiling, _, hceiling, baseHeight, _, hbase, roofDelta, _, hroof,
    dataIndex, _, hdata, reserved, _, hreserved, h⟩ := h
  cases h
  rw [spells_plane hfloor, spells_plane hceiling, spells_single hbase, spells_single hroof,
    spells_uint32 hdata, spells_uint32 hreserved]
  simp only [bytesOfLevel, List.append_assoc]

/-- A kind that a code stands for has that code. -/
theorem code_of_ofCode? {code : UInt8} {k : StructuralKind}
    (h : StructuralKind.ofCode? code = some k) : k.code = code := by
  unfold StructuralKind.ofCode? at h
  split_ifs at h with h0 h1 h2 h3 <;> cases h
  exacts [h0.symm, h1.symm, h2.symm, h3.symm]

/-- A header has one spelling. -/
theorem spells_header : Spells readHeader bytesOfHeader := by
  intro bytes header rest h
  simp only [readHeader, run_bind_eq_ok_iff] at h
  obtain ⟨flags, _, hflags, instanceId, _, hinstance, nameHash, _, hname, layerBit, _, hlayer,
    code, _, hcode, h⟩ := h
  split at h
  case h_1 => cases h
  case h_2 kind hkind =>
    simp only [run_bind_eq_ok_iff] at h
    obtain ⟨position, _, hposition, integrity, _, hintegrity, h⟩ := h
    cases h
    rw [spells_uint32 hflags, spells_uint32 hinstance, spells_uint32 hname, spells_uint8 hlayer,
      spells_uint8 hcode, spells_uint16 hposition, spells_int32 hintegrity]
    simp [bytesOfHeader, code_of_ofCode? hkind]

/-- A payload that has the length already is not resized. -/
theorem run_readData_eq_ok {size : Nat} {bytes rest : List UInt8} {d : LevelData}
    (h : (readData size).run bytes = .ok (d, rest)) :
    bytes = bytesOfData size d ++ rest ∧ d.payload.length = size := by
  simp only [readData, run_bind_eq_ok_iff] at h
  obtain ⟨header, _, hheader, payload, _, hpayload, h⟩ := h
  cases h
  obtain ⟨hbytes, hlength⟩ := Reader.run_take_eq_ok hpayload
  refine ⟨?_, hlength⟩
  rw [spells_header hheader, hbytes, bytesOfData, resizedPayload_of_length hlength,
    List.append_assoc]

/-- The data of a level is spelled by its header and a payload of the common size. -/
theorem spells_data (size : Nat) : Spells (readData size) (bytesOfData size) :=
  fun _ _ _ h => (run_readData_eq_ok h).1

/-! ### Lengths and counts -/

/-- The start of a chunk that is accepted is the one that is written, and
the length fits its field. -/
theorem run_readChunk_eq_ok {chunk : Chunk} {size : Nat} {bytes rest : List UInt8}
    (h : (readChunk chunk size).run bytes = .ok ((), rest)) :
    ∃ start, bytesOfChunk chunk size = .ok start ∧ bytes = start ++ rest := by
  simp only [readChunk, run_bind_eq_ok_iff] at h
  obtain ⟨label, _, hlabel, h⟩ := h
  split at h
  case isFalse => cases h
  case isTrue heq =>
    -- The label was compared with that of the chunk, and the length is compared next.
    subst heq
    rw [run_bind_eq_ok_iff] at h
    obtain ⟨found, _, hfound, h⟩ := h
    split at h
    case isFalse => cases h
    case isTrue hsize =>
      cases h
      subst hsize
      refine ⟨chunk.label ++ bytesOfUInt32 found, ?_, ?_⟩
      · rw [bytesOfChunk, if_pos found.toNat_lt, show found.toNat.toUInt32 = found from
          UInt32.ofNat_toNat]
      · rw [(Reader.run_take_eq_ok hlabel).1, spells_uint32 hfound, List.append_assoc]

/-- A record size that is accepted is the expected one. -/
theorem run_readRecordSize_eq_ok {record : String} {expected : UInt32} {bytes rest : List UInt8}
    (h : (readRecordSize record expected).run bytes = .ok ((), rest)) :
    bytes = bytesOfUInt32 expected ++ rest := by
  simp only [readRecordSize, run_bind_eq_ok_iff] at h
  obtain ⟨found, _, hfound, h⟩ := h
  split at h
  case isTrue heq =>
    cases h
    rw [spells_uint32 hfound, heq]
  case isFalse => cases h

/-- A payload size that is accepted is within the limit. -/
theorem run_readPayloadSize_eq_ok {size : UInt32} {bytes rest : List UInt8}
    (h : readPayloadSize.run bytes = .ok (size, rest)) :
    bytes = bytesOfUInt32 size ++ rest ∧ size ≤ payloadLimit := by
  simp only [readPayloadSize, run_bind_eq_ok_iff] at h
  obtain ⟨found, _, hfound, h⟩ := h
  split at h
  case isTrue => cases h
  case isFalse hle =>
    cases h
    exact ⟨spells_uint32 hfound, UInt32.not_lt.mp hle⟩

/-- A count of 32 bits can always be written. -/
theorem bytesOfCount_toNat (count : UInt32) :
    bytesOfCount count.toNat = .ok (bytesOfUInt32 count) := by
  rw [bytesOfCount, if_pos count.toNat_lt, show count.toNat.toUInt32 = count from
    UInt32.ofNat_toNat]

/-! ### Files -/

/-- The front of a file with some minor version. -/
def openingOf (minor : UInt16) : List UInt8 :=
  magic ++ bytesOfUInt16 majorVersion ++ bytesOfUInt16 minor

/-- An opening that is accepted has one spelling but for the minor version. -/
theorem run_readOpening_eq_ok {bytes rest : List UInt8}
    (h : readOpening.run bytes = .ok ((), rest)) :
    ∃ minor, bytes = openingOf minor ++ rest := by
  simp only [readOpening, run_bind_eq_ok_iff] at h
  obtain ⟨found, _, hfound, h⟩ := h
  split at h
  case isFalse => cases h
  case isTrue hmagic =>
    simp only [run_bind_eq_ok_iff] at h
    obtain ⟨major, _, hmajor, minor, _, hminor, h⟩ := h
    split at h
    case isFalse => cases h
    case isTrue heq =>
      cases h
      refine ⟨minor, ?_⟩
      rw [(Reader.run_take_eq_ok hfound).1, spells_uint16 hmajor, spells_uint16 hminor, hmagic, heq]
      simp only [openingOf, List.append_assoc]

/-- A preamble that is accepted is the one that is written for a board with
its grid, its payload length and its counts. -/
theorem run_readPreamble_eq_ok {p : Preamble} {bytes rest : List UInt8}
    (h : readPreamble.run bytes = .ok (p, rest)) {b : Board} (hgrid : b.grid = p.grid)
    (hpayload : b.payloadSize = p.payloadSize) (htiles : b.tiles.size = p.tileCount.toNat)
    (hlevels : b.levels.size = p.levelCount.toNat) (hdata : b.data.size = p.dataCount.toNat) :
    b.payloadSize ≤ payloadLimit ∧
      ∃ written, bytesOfPreamble b = .ok written ∧ bytes = written ++ rest := by
  simp only [readPreamble, run_bind_eq_ok_iff] at h
  obtain ⟨_, _, htile, _, _, hlevel, _, _, hheader, payloadSize, _, hsize, width, _, hwidth,
    height, _, hheight, tileCount, _, htileCount, levelCount, _, hlevelCount, dataCount, _,
    hdataCount, origin, _, horigin, tileSize, _, htileSize, minHeight, _, hmin, maxHeight, _,
    hmax, h⟩ := h
  split at h
  case isFalse => cases h
  case isTrue =>
    cases h
    obtain ⟨hsize, hlimit⟩ := run_readPayloadSize_eq_ok hsize
    refine ⟨hpayload ▸ hlimit, ?_⟩
    -- Each field that was read has one spelling, and these are the fields of the board.
    rw [bytesOfPreamble, htiles, hlevels, hdata, hgrid, hpayload]
    simp only [bytesOfCount_toNat]
    refine ⟨_, rfl, ?_⟩
    rw [run_readRecordSize_eq_ok htile, run_readRecordSize_eq_ok hlevel,
      run_readRecordSize_eq_ok hheader, hsize, spells_uint32 hwidth, spells_uint32 hheight,
      spells_uint32 htileCount, spells_uint32 hlevelCount, spells_uint32 hdataCount,
      spells_vec3 horigin, spells_single htileSize, spells_single hmin, spells_single hmax]
    simp only [bytesOfExtent, List.append_assoc]

/-- A file that is accepted is the one that is written for its map, but for
the minor version and what stands behind the last chunk. -/
theorem run_readBoard_eq_ok {bytes rest : List UInt8} {b : Board}
    (h : readBoard.run bytes = .ok (b, rest)) :
    b.Consistent ∧ b.payloadSize ≤ payloadLimit ∧
      (∀ d ∈ b.data, d.payload.length = b.payloadSize.toNat) ∧
      ∃ minor chunks, save b = .ok (opening ++ chunks) ∧
        bytes = openingOf minor ++ chunks ++ rest := by
  simp only [readBoard, run_bind_eq_ok_iff] at h
  obtain ⟨_, _, hopening, _, _, hpreambleChunk, p, _, hpreamble, _, _, hlevelChunk, levels, _,
    hlevels, _, _, htileChunk, tiles, _, htiles, _, _, hdataChunk, data, _, hdata, h⟩ := h
  split at h
  case h_2 => cases h
  case h_1 board hparts =>
    cases h
    obtain ⟨rfl, hb⟩ := Board.ofParts_eq_ok_iff.mp hparts
    obtain ⟨minor, hopening⟩ := run_readOpening_eq_ok hopening
    obtain ⟨preambleStart, hpreambleStart, hpreambleChunk⟩ := run_readChunk_eq_ok hpreambleChunk
    obtain ⟨levelStart, hlevelStart, hlevelChunk⟩ := run_readChunk_eq_ok hlevelChunk
    obtain ⟨hlevelCount, hlevelBytes⟩ := Reader.run_many_eq_ok spells_level hlevels
    obtain ⟨tileStart, htileStart, htileChunk⟩ := run_readChunk_eq_ok htileChunk
    obtain ⟨htileCount, htileBytes⟩ := Reader.run_many_eq_ok spells_tile htiles
    obtain ⟨dataStart, hdataStart, hdataChunk⟩ := run_readChunk_eq_ok hdataChunk
    obtain ⟨hdataCount, hdataBytes⟩ := Reader.run_many_eq_ok (spells_data _) hdata
    -- Only now are the counts in the preamble known to be those of the arrays.
    obtain ⟨hlimit, written, hwritten, hpreamble⟩ := run_readPreamble_eq_ok hpreamble
      (b := ⟨p.grid, p.payloadSize, tiles, levels, data⟩) rfl rfl htileCount hlevelCount hdataCount
    refine ⟨hb, hlimit, fun d hd => ?_, minor, ?_⟩
    · rcases Reader.exists_run_of_mem_manyOnto hdata hd with hnone | ⟨_, _, hread⟩
      · simp at hnone
      · exact (run_readData_eq_ok hread).2
    · -- The chunks were measured by these counts, too.
      rw [← hlevelCount] at hlevelStart
      rw [← htileCount] at htileStart
      rw [← hdataCount] at hdataStart
      refine ⟨preambleStart ++ written ++ levelStart ++ levels.toList.flatMap bytesOfLevel
        ++ tileStart ++ tiles.toList.flatMap bytesOfTile ++ dataStart
        ++ data.toList.flatMap (bytesOfData p.payloadSize.toNat), ?_, ?_⟩
      · simp only [save, hpreambleStart, hwritten, hlevelStart, htileStart, hdataStart,
          List.append_assoc]
        rfl
      · rw [hopening, hpreambleChunk, hpreamble, hlevelChunk, hlevelBytes, htileChunk, htileBytes,
          hdataChunk, hdataBytes]
        simp only [List.append_assoc]

/-- What is loaded was read from the front of the bytes. -/
theorem exists_run_of_load {bytes : List UInt8} {b : Board} (h : load bytes = .ok b) :
    ∃ rest, readBoard.run bytes = .ok (b, rest) := by
  unfold load at h
  cases hrun : readBoard.run bytes with
  | error e => rw [hrun] at h; cases h
  | ok out =>
    rw [hrun] at h
    cases h
    exact ⟨out.2, rfl⟩

/-- Two files with the same chunks agree but for the minor version, at the
places 6 and 7. -/
theorem getElem?_opening_append (minor : UInt16) (chunks rest : List UInt8) {i : Nat}
    (hi : i < (opening ++ chunks).length) :
    (opening ++ chunks)[i]?
      = if i = 6 ∨ i = 7 then some 0 else (openingOf minor ++ chunks ++ rest)[i]? := by
  have hlength : opening.length = 8 := rfl
  have hlengthOf : (openingOf minor).length = 8 := rfl
  rcases Nat.lt_or_ge i 8 with hfront | hback
  · -- The openings have eight places, and differ at two of them.
    rw [List.append_assoc, List.getElem?_append_left (hlength ▸ hfront),
      List.getElem?_append_left (hlengthOf ▸ hfront)]
    interval_cases i <;> rfl
  · have hchunks : i < (openingOf minor ++ chunks).length := by
      rwa [List.length_append, hlengthOf, ← hlength, ← List.length_append]
    rw [if_neg (by omega), List.getElem?_append_left hchunks,
      List.getElem?_append_right (hlength ▸ hback), List.getElem?_append_right (hlengthOf ▸ hback),
      hlength, hlengthOf]

/-- A map can be saved to the file that it was loaded from, but for the
minor version and what stands behind the last chunk. -/
theorem exists_save_of_load {bytes : List UInt8} {b : Board} (h : load bytes = .ok b) :
    ∃ saved, save b = .ok saved ∧ saved.length ≤ bytes.length ∧
      ∀ i < saved.length, saved[i]? = if i = 6 ∨ i = 7 then some 0 else bytes[i]? := by
  obtain ⟨rest, hrun⟩ := exists_run_of_load h
  obtain ⟨-, -, -, minor, chunks, hsave, rfl⟩ := run_readBoard_eq_ok hrun
  refine ⟨opening ++ chunks, hsave, ?_, fun i hi => getElem?_opening_append minor chunks rest hi⟩
  simp only [List.length_append, show opening.length = 8 from rfl,
    show (openingOf minor).length = 8 from rfl]
  omega

/-- A loaded map is consistent, its payloads have the map's permitted
length, and it can be saved. The saved file is a front of the loaded one but
for the two bytes of the minor version, which are zero. So a file that
differs from this one anywhere else in that front has another map. -/
theorem load_canonical {bytes : List UInt8} {b : Board} (h : load bytes = .ok b) :
    b.defect? = none ∧ b.payloadSize ≤ payloadLimit ∧
      (∀ d ∈ b.data, d.payload.length = b.payloadSize.toNat) ∧
      ∃ saved, save b = .ok saved ∧ saved.length ≤ bytes.length ∧
        (∀ i < saved.length, saved[i]? = if i = 6 ∨ i = 7 then some 0 else bytes[i]?) ∧
        ∀ bytes' b', load bytes' = .ok b' →
          (∃ i < saved.length, i ≠ 6 ∧ i ≠ 7 ∧ bytes'[i]? ≠ bytes[i]?) → b' ≠ b := by
  obtain ⟨rest, hrun⟩ := exists_run_of_load h
  obtain ⟨hb, hlimit, hpayloads, -⟩ := run_readBoard_eq_ok hrun
  obtain ⟨saved, hsave, hlength, hagree⟩ := exists_save_of_load h
  refine ⟨Board.defect?_eq_none_iff.mpr hb, hlimit, hpayloads, saved, hsave, hlength, hagree, ?_⟩
  rintro bytes' b' h' ⟨i, hi, h6, h7, hdiffer⟩ rfl
  -- Both files agree with the one file that their map is saved to.
  obtain ⟨saved', hsave', -, hagree'⟩ := exists_save_of_load h'
  cases hsave.symm.trans hsave'
  have hfree : ¬ (i = 6 ∨ i = 7) := by omega
  have hhere := hagree i hi
  have hthere := hagree' i hi
  rw [if_neg hfree] at hhere hthere
  exact hdiffer (hthere.symm.trans hhere)

/-- A file of `twoFloors` with another minor version and a byte behind the
last chunk. -/
def laterFile : List UInt8 :=
  match save twoFloors with
  | .ok saved => openingOf 7 ++ saved.drop opening.length ++ [9]
  | .error _ => []

/-- A file of a later minor version is saved as it was, but for the two bytes of the version. -/
theorem laterFile_canonical :
    (laterFile.length = 249 ∧ laterFile[6]? = some 7) ∧
      ∃ b saved, load laterFile = .ok b ∧ b.defect? = none ∧ save b = .ok saved ∧
        ∀ i < saved.length, saved[i]? = if i = 6 ∨ i = 7 then some 0 else laterFile[i]? := by
  obtain ⟨b, hload⟩ : ∃ b, load laterFile = .ok b := ⟨_, rfl⟩
  obtain ⟨hcheck, -, -, saved, hsave, -, hagree, -⟩ := load_canonical hload
  exact ⟨by decide +kernel, b, saved, hload, hcheck, hsave, hagree⟩

end MapFile

end Battlemap
