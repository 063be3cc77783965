import Battlemap.Proofs.MapFile.RoundTrip

/-!
# `Battlemap.Proofs.MapFile.Limit`: which saved maps can be loaded again

Neither the check of a map's parts nor `save` looks at the payload length, and `load`
refuses a length above `payloadLimit`. All other limits nest: `save` only writes counts
and chunk lengths that fit their fields, `load` expects the lengths that `save` computes,
and padding the payloads keeps the map consistent.

`Reader.Refuses` is the counterpart of `Reader.Reads` for readers that stop: on the given
bytes the reader stops with an error, whatever follows them. It is carried through readers
in sequence in the same way, so the refusal of one field becomes that of the file
(`refuses_board`). `saved_readable_iff` has both directions, and `paddedTile` is a map on
either side of the limit.
-/

set_option autoImplicit false

namespace Battlemap

namespace Reader

variable {α β : Type}

/-- The reader stops on the bytes with an error, whatever follows them. -/
def Refuses (r : Reader α) (bytes : List UInt8) (e : MapFileError) : Prop :=
  ∀ rest, r.run (bytes ++ rest) = .error e

/-- A failure refuses whatever it is given. -/
theorem refuses_fail (e : MapFileError) : Refuses (fail e : Reader α) [] e := by
  intro rest
  rfl

/-- What comes behind does not help. -/
theorem Refuses.append {r : Reader α} {bytes : List UInt8} {e : MapFileError}
    (h : Refuses r bytes e) (more : List UInt8) : Refuses r (bytes ++ more) e := by
  intro rest
  rw [List.append_assoc]
  exact h (more ++ rest)

/-- Readers in sequence stop where the first one does. -/
theorem Refuses.bind {r : Reader α} {f : α → Reader β} {bytes : List UInt8} {e : MapFileError}
    (h : Refuses r bytes e) : Refuses (r >>= f) bytes e := by
  intro rest
  rw [StateT.run_bind, h rest]
  rfl

/-- Readers in sequence stop where the second one does, behind the bytes of the first. -/
theorem Reads.bind_refuses {r : Reader α} {f : α → Reader β} {bytes more : List UInt8} {a : α}
    {e : MapFileError} (h : Reads r bytes a) (h' : Refuses (f a) more e) :
    Refuses (r >>= f) (bytes ++ more) e := by
  intro rest
  rw [List.append_assoc, StateT.run_bind, h.whole]
  exact h' rest

end Reader

namespace MapFile

open Reader (Reads Refuses)

/-- A payload length above the limit is refused. -/
theorem refuses_payloadSize {size : UInt32} (h : payloadLimit < size) :
    Refuses readPayloadSize (bytesOfUInt32 size) (.payloadTooLarge size payloadLimit) := by
  have hstop : Refuses readPayloadSize (bytesOfUInt32 size ++ [])
      (.payloadTooLarge size payloadLimit) := by
    refine (Reader.reads_uint32 size).bind_refuses ?_
    rw [if_pos h]
    exact Reader.refuses_fail _
  rwa [List.append_nil] at hstop

/-- A payload size above the limit is refused in the preamble. -/
theorem refuses_preamble {b : Board} (hlimit : payloadLimit < b.payloadSize) {bytes : List UInt8}
    (h : bytesOfPreamble b = .ok bytes) :
    Refuses readPreamble bytes (.payloadTooLarge b.payloadSize payloadLimit) := by
  simp only [bytesOfPreamble, except_bind_eq_ok_iff, bytesOfCount_eq_ok_iff] at h
  obtain ⟨_, ⟨-, rfl⟩, _, ⟨-, rfl⟩, _, ⟨-, rfl⟩, h⟩ := h
  cases h
  -- The length stands behind the three record lengths, and nothing behind it is read.
  simp only [List.append_assoc]
  refine (reads_recordSize "tile" _).bind_refuses <|
    (reads_recordSize "level" _).bind_refuses <|
    (reads_recordSize "level data header" _).bind_refuses ?_
  exact (refuses_payloadSize hlimit).bind.append _

/-- A file with too long payloads is refused at its preamble. -/
theorem refuses_board {b : Board} (hlimit : payloadLimit < b.payloadSize) {bytes : List UInt8}
    (h : save b = .ok bytes) :
    Refuses readBoard bytes (.payloadTooLarge b.payloadSize payloadLimit) := by
  simp only [save, except_bind_eq_ok_iff] at h
  obtain ⟨_, hchunk, _, hpreamble, _, -, _, -, _, -, h⟩ := h
  cases h
  simp only [List.append_assoc]
  exact reads_opening.bind_refuses <| (reads_chunk hchunk).bind_refuses <|
    (refuses_preamble hlimit hpreamble).bind.append _

/-- A saved map can be loaded exactly if its payload length is within the limit, and
otherwise the file is refused for that length. -/
theorem saved_readable_iff {grid : Grid} {payloadSize : UInt32} {tiles : Array Tile}
    {levels : Array Level} {data : Array LevelData} {b : Board}
    (hparts : Board.ofParts grid payloadSize tiles levels data = .ok b) {bytes : List UInt8}
    (hsave : save b = .ok bytes) :
    ((∃ again, load bytes = .ok again) ↔ b.payloadSize ≤ payloadLimit) ∧
      (payloadLimit < b.payloadSize →
        load bytes = .error (.payloadTooLarge b.payloadSize payloadLimit)) := by
  -- The length stands in the preamble, so nothing behind it is read.
  have hrefused (hlimit : payloadLimit < b.payloadSize) :
      load bytes = .error (.payloadTooLarge b.payloadSize payloadLimit) := by
    have hrun := refuses_board hlimit hsave []
    rw [List.append_nil] at hrun
    rw [load, hrun]
    rfl
  refine ⟨⟨?_, ?_⟩, hrefused⟩
  · rintro ⟨again, hload⟩
    by_contra hlimit
    rw [hrefused (UInt32.not_le.mp hlimit)] at hload
    cases hload
  · intro hlimit
    have hrun := (reads_board (.of_ofParts hparts) hlimit hsave).whole []
    rw [List.append_nil] at hrun
    exact ⟨loaded b, by rw [load, hrun]; rfl⟩

/-- A tile with one level, whose payload is given some length. -/
def paddedTile (payloadSize : UInt32) : Board where
  grid := ⟨1, 1, .one, .zero, .zero, .one⟩
  payloadSize := payloadSize
  tiles := #[⟨1, 0⟩]
  levels := #[⟨.facingUp .zero, .invalid, .zero, .infinity, 0, 0⟩]
  data := #[⟨LevelHeader.plain, []⟩]

/-- A tile with a payload of any size is a board that is accepted. -/
theorem ofParts_paddedTile (payloadSize : UInt32) :
    Board.ofParts (paddedTile payloadSize).grid payloadSize (paddedTile payloadSize).tiles
      (paddedTile payloadSize).levels (paddedTile payloadSize).data
      = .ok (paddedTile payloadSize) := rfl

/-- The longest payload that can be loaded again. -/
theorem paddedTile_readable :
    ∃ bytes, save (paddedTile 65536) = .ok bytes ∧ ∃ again, load bytes = .ok again := by
  obtain ⟨bytes, hsave⟩ : ∃ bytes, save (paddedTile 65536) = .ok bytes := ⟨_, rfl⟩
  obtain ⟨hreadable, -⟩ := saved_readable_iff (ofParts_paddedTile 65536) hsave
  exact ⟨bytes, hsave, hreadable.mpr (by decide)⟩

/-- With one byte more the map is accepted and saved, but not loaded. -/
theorem paddedTile_unreadable :
    ∃ b bytes, Board.ofParts b.grid b.payloadSize b.tiles b.levels b.data = .ok b ∧
      save b = .ok bytes ∧ load bytes = .error (.payloadTooLarge 65537 65536) := by
  obtain ⟨bytes, hsave⟩ : ∃ bytes, save (paddedTile 65537) = .ok bytes := ⟨_, rfl⟩
  have hrun := refuses_board (by decide) hsave []
  rw [List.append_nil] at hrun
  exact ⟨paddedTile 65537, bytes, ofParts_paddedTile 65537, hsave, by rw [load, hrun]; rfl⟩

end MapFile

end Battlemap
