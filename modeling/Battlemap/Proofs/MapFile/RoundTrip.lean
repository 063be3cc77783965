import Battlemap.MapFile.Codec
import Battlemap.Proofs.Consistency
import Battlemap.Proofs.Header
import Battlemap.Proofs.MapFile.Reader

/-!
# `Battlemap.Proofs.MapFile.RoundTrip`: what was saved is loaded

For each record of a map file, its reader reads the bytes of its writer.
A length or count is only written if it fits its field, so it is read
back as it was. `load_save` puts this together: a consistent map with
payloads of a permitted length comes back from its file as it was, but
for the payloads, which are cut or filled to the length of the map.
-/

set_option autoImplicit false

namespace Battlemap

namespace MapFile

open Reader (Reads)

/-! ### Records -/

/-- A tile record is read back. -/
theorem reads_tile (t : Tile) : Reads readTile (bytesOfTile t) t :=
  (Reader.reads_uint32 t.levelCount).bind <|
    (Reader.reads_uint32 t.levelStart).map (Tile.mk t.levelCount)

/-- A level record is read back. -/
theorem reads_level (l : Level) : Reads readLevel (bytesOfLevel l) l := by
  simp only [bytesOfLevel, List.append_assoc]
  exact (Reader.reads_plane l.floor).bind <| (Reader.reads_plane l.ceiling).bind <|
    (Reader.reads_single l.baseHeight).bind <| (Reader.reads_single l.roofDelta).bind <|
    (Reader.reads_uint32 l.dataIndex).bind <|
    (Reader.reads_uint32 l.reserved).map
      (Level.mk l.floor l.ceiling l.baseHeight l.roofDelta l.dataIndex)

/-- The code of a kind stands for the kind. -/
theorem ofCode?_code (k : StructuralKind) : StructuralKind.ofCode? k.code = some k := by
  cases k <;> rfl

/-- A header is read back. -/
theorem reads_header (h : LevelHeader) : Reads readHeader (bytesOfHeader h) h := by
  have hbytes : bytesOfHeader h = bytesOfUInt32 h.flags ++ (bytesOfUInt32 h.instanceId
      ++ (bytesOfUInt32 h.nameHash ++ ([h.layerBit] ++ ([h.kind.code]
      ++ (bytesOfUInt16 h.position ++ bytesOfInt32 h.integrity))))) := by
    simp [bytesOfHeader]
  rw [hbytes]
  refine (Reader.reads_uint32 h.flags).bind <| (Reader.reads_uint32 h.instanceId).bind <|
    (Reader.reads_uint32 h.nameHash).bind <| (Reader.reads_uint8 h.layerBit).bind <|
    (Reader.reads_uint8 h.kind.code).bind ?_
  rw [ofCode?_code]
  exact (Reader.reads_uint16 h.position).bind <| (Reader.reads_int32 h.integrity).map
    (LevelHeader.mk h.flags h.instanceId h.nameHash h.layerBit h.kind h.position)

/-- The data of a level is read back with a payload of the common size. -/
theorem reads_data (size : Nat) (d : LevelData) :
    Reads (readData size) (bytesOfData size d) (d.resized size) := by
  have hpayload := Reader.reads_take (resizedPayload d.payload size)
  rw [length_resizedPayload] at hpayload
  exact (reads_header d.header).bind <| hpayload.map (LevelData.mk d.header)

/-! ### Lengths and counts -/

/-- The head of a chunk that was written is accepted. -/
theorem reads_chunk {chunk : Chunk} {size : Nat} {bytes : List UInt8}
    (h : bytesOfChunk chunk size = .ok bytes) : Reads (readChunk chunk size) bytes () := by
  unfold bytesOfChunk at h
  split at h
  case isFalse => cases h
  case isTrue hlt =>
    cases h
    have hlabel := Reader.reads_take chunk.label
    rw [show chunk.label.length = 4 by cases chunk <;> rfl] at hlabel
    refine hlabel.bind ?_
    rw [if_pos rfl]
    exact (Reader.reads_uint32 _).bind_pure (if_pos (UInt32.toNat_ofNat_of_lt' hlt))

/-- A count is written exactly if it has no more than 32 bits. -/
theorem bytesOfCount_eq_ok_iff {count : Nat} {bytes : List UInt8} :
    bytesOfCount count = .ok bytes ↔
      count < UInt32.size ∧ bytes = bytesOfUInt32 count.toUInt32 := by
  unfold bytesOfCount
  split
  case isTrue hlt => simp [hlt, eq_comm]
  case isFalse hge => simp [hge]

/-- The size of a record is what is expected of it. -/
theorem reads_recordSize (record : String) (size : UInt32) :
    Reads (readRecordSize record size) (bytesOfUInt32 size) () :=
  (Reader.reads_uint32 size).bind_pure (if_pos rfl)

/-- A payload size within the limit is read back. -/
theorem reads_payloadSize {size : UInt32} (h : size ≤ payloadLimit) :
    Reads readPayloadSize (bytesOfUInt32 size) size :=
  (Reader.reads_uint32 size).bind_pure (if_neg (UInt32.not_lt.mpr h))

/-! ### Files -/

/-- The opening that is written is accepted. -/
theorem reads_opening : Reads readOpening opening () := by
  rw [opening, List.append_assoc]
  refine (Reader.reads_take magic).bind ?_
  rw [if_pos rfl]
  exact (Reader.reads_uint16 majorVersion).bind <|
    (Reader.reads_uint16 minorVersion).bind_pure (if_pos rfl)

/-- The preamble of a map with a tile for every cell. -/
theorem reads_preamble {b : Board} (hcount : b.tiles.size = b.grid.tileCount)
    (hlimit : b.payloadSize ≤ payloadLimit) {bytes : List UInt8}
    (h : bytesOfPreamble b = .ok bytes) :
    Reads readPreamble bytes ⟨b.grid, b.payloadSize, b.tiles.size.toUInt32,
      b.levels.size.toUInt32, b.data.size.toUInt32⟩ := by
  simp only [bytesOfPreamble, except_bind_eq_ok_iff, bytesOfCount_eq_ok_iff] at h
  obtain ⟨_, ⟨htiles, rfl⟩, _, ⟨-, rfl⟩, _, ⟨-, rfl⟩, h⟩ := h
  cases h
  simp only [bytesOfExtent, List.append_assoc]
  refine (reads_recordSize "tile" _).bind <| (reads_recordSize "level" _).bind <|
    (reads_recordSize "level data header" _).bind <| (reads_payloadSize hlimit).bind <|
    (Reader.reads_uint32 b.grid.width).bind <| (Reader.reads_uint32 b.grid.height).bind <|
    (Reader.reads_uint32 _).bind <| (Reader.reads_uint32 _).bind <| (Reader.reads_uint32 _).bind <|
    (Reader.reads_vec3 b.grid.origin).bind <| (Reader.reads_single b.grid.tileSize).bind <|
    (Reader.reads_single b.grid.minHeight).bind <|
    (Reader.reads_single b.grid.maxHeight).bind_pure (if_pos ?_)
  rw [UInt32.toNat_ofNat_of_lt' htiles]
  exact hcount

/-- A preamble is only written if all counts fit their fields. -/
theorem counts_lt_of_bytesOfPreamble {b : Board} {bytes : List UInt8}
    (h : bytesOfPreamble b = .ok bytes) :
    b.tiles.size < UInt32.size ∧ b.levels.size < UInt32.size ∧ b.data.size < UInt32.size := by
  simp only [bytesOfPreamble, except_bind_eq_ok_iff, bytesOfCount_eq_ok_iff] at h
  obtain ⟨_, ⟨htiles, -⟩, _, ⟨hlevels, -⟩, _, ⟨hdata, -⟩, -⟩ := h
  exact ⟨htiles, hlevels, hdata⟩

/-- A board with payloads of its own length. -/
def loaded (b : Board) : Board :=
  { b with data := b.data.map fun d => d.resized b.payloadSize.toNat }

/-- A board stays consistent when it is saved and loaded, since this changes no header. -/
theorem loaded_consistent {b : Board} (hb : b.Consistent) : (loaded b).Consistent :=
  hb.withData fun i d hd =>
    ⟨d.resized b.payloadSize.toNat, by rw [Array.getElem?_map, hd, Option.map_some], rfl⟩

/-- A file is read to its end, and gives the board with payloads of its own
length. -/
theorem reads_board {b : Board} (hb : b.Consistent) (hlimit : b.payloadSize ≤ payloadLimit)
    {bytes : List UInt8} (h : save b = .ok bytes) : Reads readBoard bytes (loaded b) := by
  simp only [save, except_bind_eq_ok_iff] at h
  obtain ⟨_, hchunk, _, hpreamble, _, hlevelChunk, _, htileChunk, _, hdataChunk, h⟩ := h
  cases h
  obtain ⟨htiles, hlevels, hdata⟩ := counts_lt_of_bytesOfPreamble hpreamble
  have hparts : Board.ofParts b.grid b.payloadSize b.tiles b.levels
      (b.data.map fun d => d.resized b.payloadSize.toNat) = .ok (loaded b) :=
    Board.ofParts_eq_ok_iff.mpr ⟨rfl, loaded_consistent hb⟩
  simp only [List.append_assoc]
  refine reads_opening.bind <| (reads_chunk hchunk).bind <|
    (reads_preamble hb.tileCount hlimit hpreamble).bind ?_
  dsimp only
  -- The counts fit their fields, so as many records are read as were written.
  rw [UInt32.toNat_ofNat_of_lt' htiles, UInt32.toNat_ofNat_of_lt' hlevels,
    UInt32.toNat_ofNat_of_lt' hdata]
  refine (reads_chunk hlevelChunk).bind <| (Reader.reads_many_self reads_level).bind <|
    (reads_chunk htileChunk).bind <| (Reader.reads_many_self reads_tile).bind <|
    (reads_chunk hdataChunk).bind <|
    (Reader.reads_many (reads_data b.payloadSize.toNat)).bind_pure ?_
  rw [hparts]

/-- What was saved is loaded. The grid, the payload length, the tiles and
the levels come back bit by bit, and so do the headers; payloads come back
cut or filled with zeros to the payload length. -/
theorem load_save {grid : Grid} {payloadSize : UInt32} {tiles : Array Tile}
    {levels : Array Level} {data : Array LevelData} {b : Board}
    (hparts : Board.ofParts grid payloadSize tiles levels data = .ok b)
    (hlimit : b.payloadSize ≤ payloadLimit) {bytes : List UInt8} (hsave : save b = .ok bytes) :
    load bytes = .ok ⟨b.grid, b.payloadSize, b.tiles, b.levels, b.data.map fun d =>
      ⟨d.header, d.payload.take b.payloadSize.toNat
        ++ List.replicate (b.payloadSize.toNat - d.payload.length) 0⟩⟩ := by
  have hread := (reads_board (.of_ofParts hparts) hlimit hsave).whole []
  rw [List.append_nil] at hread
  rw [load, hread]
  rfl

/-- A tile with two levels without roofs, one with a longer and one with a
shorter payload than the board's. -/
def twoFloors : Board where
  grid := ⟨1, 1, .one, .zero, .zero, .infinity⟩
  payloadSize := 2
  tiles := #[⟨2, 0⟩]
  levels := #[level 0, level 1]
  data := #[⟨{ LevelHeader.plain with position := 0 }, [1, 2, 3]⟩,
    ⟨{ LevelHeader.plain with position := 1 }, [7]⟩]
where
  level (index : UInt32) : Level := ⟨.facingUp .zero, .invalid, .zero, .infinity, index, 0⟩

/-- Two floors come back from a file with their levels, and with payloads that are filled up or
cut to the common size. -/
theorem twoFloors_load_save :
    ∃ bytes, save twoFloors = .ok bytes ∧
      (load bytes).map (fun b => (b.levels, b.data.map LevelData.payload))
        = .ok (twoFloors.levels, #[[1, 2], [7, 0]]) := by
  have hparts : Board.ofParts twoFloors.grid twoFloors.payloadSize twoFloors.tiles
      twoFloors.levels twoFloors.data = .ok twoFloors := rfl
  obtain ⟨bytes, hsave⟩ : ∃ bytes, save twoFloors = .ok bytes := ⟨_, rfl⟩
  refine ⟨bytes, hsave, ?_⟩
  rw [load_save hparts (by decide) hsave]
  simp [Except.map, twoFloors]

/-- A file reaches exactly as far as it was saved. Wherever it is cut off, the file ends
early, and bytes that are put behind it change nothing. -/
theorem load_extent {grid : Grid} {payloadSize : UInt32} {tiles : Array Tile}
    {levels : Array Level} {data : Array LevelData} {b : Board}
    (hparts : Board.ofParts grid payloadSize tiles levels data = .ok b)
    (hlimit : b.payloadSize ≤ payloadLimit) {bytes : List UInt8} (hsave : save b = .ok bytes) :
    (∀ front, front <+: bytes → front ≠ bytes → load front = .error .truncated) ∧
      ∃ again, load bytes = .ok again ∧ ∀ rest, load (bytes ++ rest) = .ok again := by
  have hread := reads_board (.of_ofParts hparts) hlimit hsave
  have hrest : ∀ rest, load (bytes ++ rest) = .ok (loaded b) := by
    intro rest
    rw [load, hread.whole rest]
    rfl
  refine ⟨?_, loaded b, ?_, hrest⟩
  · intro front hfront hcut
    rw [load, hread.cut front hfront hcut]
    rfl
  · have hall := hrest []
    rw [List.append_nil] at hall
    exact hall

/-- The file of `twoFloors` has 248 bytes, and no fewer will do. -/
theorem twoFloors_load_extent :
    ∃ bytes again, save twoFloors = .ok bytes ∧ load bytes = .ok again ∧
      (∀ count < 248, load (bytes.take count) = .error .truncated) ∧
      load (bytes ++ [0x54, 0x4d]) = .ok again := by
  have hparts : Board.ofParts twoFloors.grid twoFloors.payloadSize twoFloors.tiles
      twoFloors.levels twoFloors.data = .ok twoFloors := rfl
  obtain ⟨bytes, hsave⟩ : ∃ bytes, save twoFloors = .ok bytes := ⟨_, rfl⟩
  have hlength : bytes.length = 248 := by
    have hsaved : (save twoFloors).toOption.map List.length = some 248 := by decide +kernel
    rw [hsave] at hsaved
    exact Option.some.inj hsaved
  obtain ⟨hcut, again, hload, hrest⟩ := load_extent hparts (by decide) hsave
  refine ⟨bytes, again, hsave, hload, ?_, hrest _⟩
  intro count hcount
  refine hcut _ (List.take_prefix count bytes) ?_
  intro hall
  have hshort := congrArg List.length hall
  rw [List.length_take, hlength] at hshort
  omega

end MapFile

end Battlemap
