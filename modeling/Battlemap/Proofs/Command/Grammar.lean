import Battlemap.Command.Placement
import Battlemap.Proofs.Success
import Mathlib.Data.List.TakeDrop
import Mathlib.Data.List.TakeWhile

/-!
# `Battlemap.Proofs.Command.Grammar`: which texts are points and parcels

A reader that goes through the fields of a text one after the other says
nothing about the texts it accepts. Here they are written down the other
way round, from the fields to the text: fields without a comma in them,
put together with commas between them, behind a file and a commercial
at. Taking a text apart undoes putting it together (`fieldsOf_eq_iff`,
`splitAtLast_eq_some_iff`), so the two readers accept exactly what can be
put together from fields that read as numbers (`readPlacement_grammar`).

The grammar of a point has three fields and no more. A parcel is spelled
with five, but its reader stops at the fifth: a text with further fields
is accepted, and they have no part in the parcel
(`surplus_field_accepted`).
-/

set_option autoImplicit false

namespace Battlemap

/-! ### Taking texts apart -/

/-- The parts of a list that is split at an element do not have the element in them. -/
theorem not_mem_of_mem_splitOn {α : Type*} [DecidableEq α] {a : α} {xs part : List α}
    (h : part ∈ xs.splitOn a) : a ∉ part := by
  induction xs generalizing part with
  | nil => simp_all
  | cons x xs ih =>
    obtain ⟨first, rest, hparts⟩ := List.exists_cons_of_ne_nil (List.splitOn_ne_nil a xs)
    rw [hparts] at ih
    rw [List.splitOn_cons_eq_if_modifyHead, hparts] at h
    split at h
    · rcases List.mem_cons.mp h with rfl | hmem
      · exact List.not_mem_nil
      · exact ih hmem
    · next hne =>
      rcases List.mem_cons.mp h with rfl | hmem
      · have ha : a ∉ first := ih List.mem_cons_self
        have hx : a ≠ x := fun heq => hne (by simp [heq])
        simp [hx, ha]
      · exact ih (List.mem_cons_of_mem _ hmem)

/-- The fields of a text are the texts without commas that it joins by commas, of which there is
at least one. -/
theorem fieldsOf_eq_iff {text : String} {fields : List String} :
    fieldsOf text = fields
      ↔ fields ≠ [] ∧ text = ",".intercalate fields ∧ ∀ field ∈ fields, ',' ∉ field.toList := by
  constructor
  · rintro rfl
    refine ⟨by simp [fieldsOf], ?_, ?_⟩
    · rw [← String.toList_inj, String.toList_intercalate]
      have hparts : (fieldsOf text).map String.toList = text.toList.splitOn ',' := by
        simp [fieldsOf, Function.comp_def]
      rw [hparts]
      exact (List.intercalate_splitOn ',').symm
    · intro field hmem
      obtain ⟨part, hpart, rfl⟩ := List.mem_map.mp hmem
      simpa using not_mem_of_mem_splitOn hpart
  · rintro ⟨hne, rfl, hfree⟩
    -- No field has a comma in it, so splitting finds the fields again.
    have hparts : (",".intercalate fields).toList.splitOn ',' = fields.map String.toList := by
      rw [String.toList_intercalate]
      exact List.splitOn_intercalate ',' (by simpa using hfree) (by simpa using hne)
    unfold fieldsOf
    rw [hparts]
    simp [Function.comp_def]

/-- A list breaks off where its first element without the property stands. -/
theorem span_eq_cons_iff {α : Type*} {p : α → Bool} {xs front back : List α} {a : α} :
    xs.span p = (front, a :: back)
      ↔ xs = front ++ a :: back ∧ (∀ x ∈ front, p x = true) ∧ p a = false := by
  rw [List.span_eq_takeWhile_dropWhile, Prod.mk.injEq]
  constructor
  · rintro ⟨rfl, hback⟩
    refine ⟨?_, fun x hx => List.mem_takeWhile_imp hx, ?_⟩
    · rw [← hback, List.takeWhile_append_dropWhile]
    · have hne : xs.dropWhile p ≠ [] := by simp [hback]
      have hhead := List.head_dropWhile_not p hne
      simpa only [hback, List.head_cons] using hhead
  · rintro ⟨rfl, hfront, ha⟩
    rw [List.takeWhile_append_of_pos hfront, List.dropWhile_append_of_pos hfront]
    simp [ha]

/-- A text is split where no further `@` follows. -/
theorem splitAtLast_eq_some_iff {text front back : String} :
    splitAtLast text = some (front, back)
      ↔ text = front ++ "@" ++ back ∧ '@' ∉ back.toList := by
  -- The reader goes through the text from its end, so both sides are read backwards.
  constructor
  · intro h
    unfold splitAtLast at h
    rcases hspan : text.toList.reverse.span (· != '@') with ⟨behind, rest⟩
    rw [hspan] at h
    cases rest with
    | nil => cases h
    | cons a before =>
      obtain ⟨hall, hbehind, ha⟩ := span_eq_cons_iff.mp hspan
      obtain ⟨rfl, rfl⟩ := by simpa using h
      obtain rfl : a = '@' := by simpa using ha
      refine ⟨?_, fun hmem => ?_⟩
      · rw [← String.toList_inj, ← List.reverse_inj, hall]
        simp
      · simpa using hbehind '@' (by simpa using hmem)
  · rintro ⟨rfl, hfree⟩
    have hspan : (front ++ "@" ++ back).toList.reverse.span (· != '@')
        = (back.toList.reverse, '@' :: front.toList.reverse) := by
      refine span_eq_cons_iff.mpr ⟨by simp, fun c hc => ?_, by simp⟩
      have hne : c ≠ '@' := fun heq => hfree (by simpa [heq] using hc)
      simpa using hne
    unfold splitAtLast
    rw [hspan]
    simp

/-! ### Reading fields -/

/-- A whole number of degrees is a rotation if it is a multiple of ninety, and then the one by
as many quarter turns modulo four, also below zero. -/
theorem Rotation.ofDegrees?_eq_some_iff {degrees : Int} {r : Rotation} :
    Rotation.ofDegrees? degrees = some r
      ↔ 90 ∣ degrees ∧ (r.quarterTurns : Int) = degrees / 90 % 4 := by
  cases r <;> unfold ofDegrees? quarterTurns <;> grind

/-- Degrees are accepted exactly if they are a multiple of ninety, whatever their sign. -/
theorem rotationOf_eq_ok_iff {degrees : Int32} {r : Rotation} :
    rotationOf degrees = .ok r
      ↔ 90 ∣ degrees.toInt ∧ (r.quarterTurns : Int) = degrees.toInt / 90 % 4 := by
  rw [← Rotation.ofDegrees?_eq_some_iff]
  unfold rotationOf
  split <;> simp_all

/-- A field is read if it is there and means something without the blanks around it. -/
theorem readField_eq_ok_iff {α : Type} {read : String → Option α} {name : String}
    {fields : List String} {place : Nat} {value : α} :
    readField read name fields place = .ok value
      ↔ ∃ field, fields[place]? = some field ∧ read (trimmed field) = some value := by
  unfold readField
  split
  · simp_all
  · split <;> simp_all

/-- The texts read as the coordinates of the point. -/
structure PointRead (x y z : String) (point : Vec3) : Prop where
  x : Single.read? (trimmed x) = some point.x
  y : Single.read? (trimmed y) = some point.y
  z : Single.read? (trimmed z) = some point.z

/-- A point is read off the first three fields. -/
theorem readPointFields_eq_ok_iff {fields : List String} {point : Vec3} :
    readPointFields fields = .ok point
      ↔ ∃ x y z rest, fields = x :: y :: z :: rest ∧ PointRead x y z point := by
  unfold readPointFields
  simp only [except_bind_eq_ok_iff, readField_eq_ok_iff]
  constructor
  · rintro ⟨_, ⟨x, hx, hreadx⟩, _, ⟨y, hy, hready⟩, _, ⟨z, hz, hreadz⟩, heq⟩
    obtain rfl := Except.ok.inj heq
    obtain ⟨rest, rfl⟩ : ∃ rest, fields = x :: y :: z :: rest := by
      rcases fields with - | ⟨_, - | ⟨_, - | ⟨_, rest⟩⟩⟩ <;> simp_all
    exact ⟨x, y, z, rest, rfl, hreadx, hready, hreadz⟩
  · rintro ⟨x, y, z, rest, rfl, hread⟩
    exact ⟨_, ⟨x, rfl, hread.x⟩, _, ⟨y, rfl, hread.y⟩, _, ⟨z, rfl, hread.z⟩, rfl⟩

/-- The text reads as an angle of whole quarter turns: as many as the
rotation has, up to full turns. -/
def TurnRead (angle : String) (rotation : Rotation) : Prop :=
  ∃ degrees : Int32, readInt32 (trimmed angle) = some degrees ∧ 90 ∣ degrees.toInt
    ∧ (rotation.quarterTurns : Int) = degrees.toInt / 90 % 4

/-! ### The grammar -/

/-- The text is the fields with commas between them, and none in them. -/
def Spelled (text : String) (fields : List String) : Prop :=
  text = ",".intercalate fields ∧ ∀ field ∈ fields, ',' ∉ field.toList

/-- With one field at least, a text spells the fields that it has between its commas. -/
theorem spelled_cons_iff {text field : String} {fields : List String} :
    Spelled text (field :: fields) ↔ fieldsOf text = field :: fields := by
  simp [Spelled, fieldsOf_eq_iff]

/-- A point on its own has exactly three fields. -/
theorem readPoint_eq_ok_iff {text : String} {point : Vec3} :
    readPoint text = .ok point
      ↔ ∃ x y z, Spelled text [x, y, z] ∧ PointRead x y z point := by
  simp only [readPoint, except_bind_eq_ok_iff, readPointFields_eq_ok_iff, spelled_cons_iff]
  constructor
  · rintro ⟨_, ⟨x, y, z, rest, hfields, hread⟩, hend⟩
    rw [hfields] at hend
    -- A field behind the third would have been an error.
    split at hend
    · cases hend
    · next hfew =>
      obtain rfl := Except.ok.inj hend
      obtain rfl : rest = [] := by simpa using hfew
      exact ⟨x, y, z, hfields, hread⟩
  · rintro ⟨x, y, z, hfields, hread⟩
    exact ⟨point, ⟨x, y, z, [], hfields, hread⟩, by rw [hfields]; rfl⟩

/-- A placement is a path, the last `@` of the text, and then five fields or more, of which
those after the fifth are not read. -/
theorem readPlacement_eq_ok_iff {text : String} {p : ParcelPlacement} :
    readPlacement text = .ok p
      ↔ ∃ back x y z angle parcel surplus, text = p.path ++ "@" ++ back ∧ '@' ∉ back.toList
        ∧ Spelled back (x :: y :: z :: angle :: parcel :: surplus)
        ∧ PointRead x y z p.position ∧ TurnRead angle p.rotation
        ∧ readUInt32 (trimmed parcel) = some p.parcel := by
  constructor
  · intro h
    unfold readPlacement at h
    split at h
    · cases h
    · next path back hsplit =>
      simp only [except_bind_eq_ok_iff, readPointFields_eq_ok_iff, readField_eq_ok_iff,
        rotationOf_eq_ok_iff] at h
      obtain ⟨_, ⟨x, y, z, rest, hfields, hpoint⟩, degrees, ⟨angle, hangle, hdegrees⟩, _, hturn,
        _, ⟨parcel, hparcel, hreadparcel⟩, heq⟩ := h
      obtain rfl := Except.ok.inj heq
      obtain ⟨htext, hfree⟩ := splitAtLast_eq_some_iff.mp hsplit
      -- Nothing is asked about the fields behind the fifth.
      obtain ⟨surplus, rfl⟩ : ∃ surplus, rest = angle :: parcel :: surplus := by
        rcases rest with - | ⟨_, - | ⟨_, surplus⟩⟩ <;> simp_all
      exact ⟨back, x, y, z, angle, parcel, surplus, htext, hfree, spelled_cons_iff.mpr hfields,
        hpoint, ⟨degrees, hdegrees, hturn⟩, hreadparcel⟩
  · rintro ⟨back, x, y, z, angle, parcel, surplus, htext, hfree, hspelled, hpoint,
      ⟨degrees, hdegrees, hturn⟩, hreadparcel⟩
    have hfields := spelled_cons_iff.mp hspelled
    unfold readPlacement
    simp only [splitAtLast_eq_some_iff.mpr ⟨htext, hfree⟩, except_bind_eq_ok_iff,
      readPointFields_eq_ok_iff, readField_eq_ok_iff, rotationOf_eq_ok_iff, hfields]
    exact ⟨_, ⟨x, y, z, _, rfl, hpoint⟩, degrees, ⟨angle, rfl, hdegrees⟩, _, hturn, _,
      ⟨parcel, rfl, hreadparcel⟩, rfl⟩

/-- A parcel is read from a text that has its file, a commercial at and
five fields that read as its point, its turn and its identifier, with any
further fields behind them; a point is read from three fields alone. -/
theorem readPlacement_grammar (text : String) :
    (∀ p, readPlacement text = .ok p
      ↔ ∃ back x y z angle parcel surplus, text = p.path ++ "@" ++ back ∧ '@' ∉ back.toList
        ∧ Spelled back (x :: y :: z :: angle :: parcel :: surplus)
        ∧ PointRead x y z p.position ∧ TurnRead angle p.rotation
        ∧ readUInt32 (trimmed parcel) = some p.parcel)
    ∧ ∀ point, readPoint text = .ok point
      ↔ ∃ x y z, Spelled text [x, y, z] ∧ PointRead x y z point :=
  ⟨fun _ => readPlacement_eq_ok_iff, fun _ => readPoint_eq_ok_iff⟩

/-- A text with six fields is read as a parcel, so a parcel that is read
need not have been spelled with five. -/
theorem surplus_field_accepted :
    ¬ ∀ text p, readPlacement text = .ok p →
      ∃ back x y z angle parcel, text = p.path ++ "@" ++ back ∧ '@' ∉ back.toList
        ∧ Spelled back [x, y, z, angle, parcel] := by
  intro hfive
  have hread : readPlacement "house.tmap@0,0,0,90,1,2"
      = .ok ⟨"house.tmap", ⟨⟨0⟩, ⟨0⟩, ⟨0⟩⟩, .quarter, 1⟩ := by decide
  obtain ⟨back, x, y, z, angle, parcel, htext, hfree, hspelled⟩ := hfive _ _ hread
  have hsplit : splitAtLast "house.tmap@0,0,0,90,1,2" = some ("house.tmap", "0,0,0,90,1,2") := by
    decide
  obtain rfl : "0,0,0,90,1,2" = back := by
    simpa [hsplit] using splitAtLast_eq_some_iff.mpr ⟨htext, hfree⟩
  have hsix : (fieldsOf "0,0,0,90,1,2").length = 6 := by decide
  rw [spelled_cons_iff.mp hspelled] at hsix
  cases hsix

end Battlemap
