import Battlemap.Proofs.Build.Registration
import Battlemap.Proofs.Number.Order
import Battlemap.Proofs.Number.Whole

/-!
# `Battlemap.Proofs.Build.Reach`: a solid reaches the tiles that it covers

Along an axis, the two ends of a box are counted in tiles from the origin
(`TileAxis.position`), moved to the nearest edges, and the range between is widened. A
number that is rounded to a single goes no further than any other single is away
(`Single.IsNearest.abs_sub_le`), so the edge nearest to a position is not below its tile and
at most one above (`le_edge`, `edge_le`). One tile more below is then enough.

The edges are signed words. Far beyond the grid they stop at the ends of that type
(`edge_eq_minValue_iff`, `edge_eq_maxValue_iff`), and the step to the next edge leads from
one end to the other. A box that starts there is in no tile, whatever it covers
(`TileAxis.range?_eq_none`). Above the least word every covered tile is in the range
(`TileAxis.exists_range_of_covers`), and so the bin of a tile has what covers it.
-/

set_option autoImplicit false

namespace Battlemap

/-! ### Numbers of tiles -/

namespace Single

/-- A number is at most an integer. -/
def AtMost (a : Single) (n : ℤ) : Prop :=
  a = negInfinity ∨ a.isFinite = true ∧ a.units ≤ n * 2 ^ 149

/-- A number is at least an integer. -/
def AtLeast (a : Single) (n : ℤ) : Prop :=
  a = infinity ∨ a.isFinite = true ∧ n * 2 ^ 149 ≤ a.units

instance (a : Single) (n : ℤ) : Decidable (a.AtMost n) :=
  inferInstanceAs (Decidable (a = negInfinity ∨ a.isFinite = true ∧ a.units ≤ n * 2 ^ 149))

instance (a : Single) (n : ℤ) : Decidable (a.AtLeast n) :=
  inferInstanceAs (Decidable (a = infinity ∨ a.isFinite = true ∧ n * 2 ^ 149 ≤ a.units))

/-- The number `2 ^ 63`, one more than the greatest signed word. -/
def wordLimit : Single := ⟨0x5f000000⟩

/-- The edge nearest to a position that is given in tiles. -/
def edge (u : Single) : Int64 := (u + .half).floor.toInt64

variable {u : Single} {n : ℤ}

/-- A number that is at most some whole number is at most any greater one. -/
theorem AtMost.mono {m : ℤ} (h : u.AtMost n) (hle : n ≤ m) : u.AtMost m :=
  h.imp_right fun ⟨hfinite, hunits⟩ => ⟨hfinite, by omega⟩

/-- A number that is at least some whole number is at least any lesser one. -/
theorem AtLeast.mono {m : ℤ} (h : u.AtLeast n) (hle : m ≤ n) : u.AtLeast m :=
  h.imp_right fun ⟨hfinite, hunits⟩ => ⟨hfinite, by omega⟩

/-- Rounding leaves infinity as it is. -/
theorem floor_infinity : floor infinity = infinity := rfl

/-- Rounding leaves negative infinity as it is. -/
theorem floor_negInfinity : floor negInfinity = negInfinity := rfl

/-- The floor of a finite number is at most an integer if the number is below the next one. -/
theorem atMost_floor_iff (hu : u.isFinite = true) :
    u.floor.AtMost n ↔ u.units < (n + 1) * 2 ^ 149 := by
  have hfinite := (isWhole_floor hu).isFinite
  have hfloor := units_floor hu
  constructor
  · rintro (hinfinite | ⟨-, hle⟩)
    · rw [hinfinite] at hfinite
      cases hfinite
    · omega
  · intro hlt
    exact .inr ⟨hfinite, by omega⟩

/-- The floor is at least an integer if the number is. -/
theorem atLeast_floor_iff (hu : u.isNaN = false) : u.floor.AtLeast n ↔ u.AtLeast n := by
  cases hfinite : u.isFinite with
  | true =>
    have hfloor := (isWhole_floor hfinite).isFinite
    have hunits := units_floor hfinite
    constructor
    · rintro (hinfinite | ⟨-, hle⟩)
      · rw [hinfinite] at hfloor
        cases hfloor
      · exact .inr ⟨hfinite, by omega⟩
    · rintro (rfl | ⟨-, hle⟩)
      · cases hfinite
      · exact .inr ⟨hfloor, by omega⟩
  | false =>
    rcases infinite_cases hu hfinite with rfl | rfl
    · rw [floor_infinity]
    · rw [floor_negInfinity]

/-! ### The nearest edge -/

/-- One half is a finite number. -/
theorem isFinite_half : half.isFinite = true := rfl

/-- Adding one half does not lead down. -/
theorem le_add_half (hu : u.isFinite = true) : u ≤ u + half := le_add_of_zero_le hu (by decide)

/-- Adding one half does not lead above one more, since no single is nearer. -/
theorem units_add_half_le (hu : u.isFinite = true) (hsum : (u + half).isFinite = true) :
    (u + half).units ≤ u.units + 2 ^ 149 := by
  have hhalf : (half.units : ℚ) = 2 ^ 148 := by exact_mod_cast (rfl : half.units = 2 ^ 148)
  have hnearest := (isNearest_add hu isFinite_half).abs_sub_le hsum u
  rw [hhalf, sub_add_cancel_left, abs_neg,
    abs_of_pos (by positivity : (0 : ℚ) < 2 ^ 148)] at hnearest
  have hle : ((u + half).units : ℚ) ≤ u.units + 2 ^ 149 := by
    have := (abs_le.mp hnearest).2
    linarith
  exact_mod_cast hle

/-- Below the limit of the words, so is the sum with one half. -/
theorem add_half_le_of_lt (hu : u.isFinite = true) (hlt : u < wordLimit) :
    u + half ≤ ⟨0x5effffff⟩ := by
  -- No single lies between the limit and the one below.
  have hle : u ≤ ⟨0x5effffff⟩ := by
    refine ⟨hlt.1, rfl, ?_⟩
    have hrank := hlt.2.2
    rw [show wordLimit.rank = 0x5f000000 from rfl] at hrank
    rw [show rank ⟨0x5effffff⟩ = 0x5effffff from rfl]
    omega
  have hsum := Single.add_le_add hu rfl isFinite_half isFinite_half hle (Single.le_refl rfl)
  rwa [show (⟨0x5effffff⟩ : Single) + half = ⟨0x5effffff⟩ by decide +kernel] at hsum

/-- At the least word and below, the sum with one half stays there. -/
theorem add_half_le_of_le (hu : u.isFinite = true) (hle : u ≤ -wordLimit) :
    u + half ≤ -wordLimit := by
  have hsum := Single.add_le_add hu rfl isFinite_half isFinite_half hle (Single.le_refl rfl)
  rwa [show -wordLimit + half = -wordLimit by decide +kernel] at hsum

/-- The edge nearest to a finite position is the whole number below the position plus one half,
cut to 64 bits. -/
theorem toInt_edge (hsum : (u + half).isFinite = true) :
    u.edge.toInt = max (-2 ^ 63) (min (2 ^ 63 - 1) ((u + half).units / 2 ^ 149)) :=
  toInt_toInt64_floor hsum

/-- The edge nearest to infinity is the last one that there is a number for. -/
theorem edge_infinity : edge infinity = Int64.maxValue := by decide +kernel

/-- The edge nearest to negative infinity is the first one that there is a number for. -/
theorem edge_negInfinity : edge negInfinity = Int64.minValue := by decide +kernel

/-- A sum with one half that is too large for a single is at the greatest word. -/
theorem edge_of_not_isFinite (hu : u.isFinite = true) (hsum : (u + half).isFinite = false) :
    u.edge = Int64.maxValue := by
  have hle := le_add_half hu
  rcases infinite_cases hle.2.1 hsum with hinfinity | hinfinity
  · rw [edge, hinfinity]
    decide +kernel
  · -- Nothing finite is below the least number.
    rw [hinfinity] at hle
    have hrank := (abs_lt.mp (isFinite_iff_abs_rank_lt.mp hu)).1
    have hlow := hle.2.2
    rw [show negInfinity.rank = -(255 * 2 ^ 23) from rfl] at hlow
    omega

/-- The nearest edge is not below the tile. -/
theorem le_edge (hn : n < 2 ^ 63) (h : u.AtLeast n) : n ≤ u.edge.toInt := by
  rcases h with rfl | ⟨hu, hunits⟩
  · rw [edge_infinity, show Int64.maxValue.toInt = 2 ^ 63 - 1 from rfl]
    omega
  · cases hsum : (u + half).isFinite with
    | true =>
      have hle := (le_iff_units_le hu hsum).mp (le_add_half hu)
      rw [toInt_edge hsum]
      omega
    | false =>
      rw [edge_of_not_isFinite hu hsum, show Int64.maxValue.toInt = 2 ^ 63 - 1 from rfl]
      omega

/-- The nearest edge is at most one above the tile. -/
theorem edge_le (hn : -2 ^ 63 ≤ n) (hlimit : n < 2 ^ 62) (hu : u.isFinite = true)
    (h : u.units < (n + 1) * 2 ^ 149) : u.edge.toInt ≤ n + 1 := by
  have hlt : u < wordLimit := by
    rw [lt_iff_units_lt hu rfl, show wordLimit.units = 2 ^ 63 * 2 ^ 149 from rfl]
    omega
  have hsum : (u + half).isFinite = true :=
    isFinite_of_le_of_le (le_add_half hu) (add_half_le_of_lt hu hlt) hu rfl
  have hle := units_add_half_le hu hsum
  rw [toInt_edge hsum]
  omega

/-- The nearest edge is the least word for what is not above it. -/
theorem edge_eq_minValue_iff (hu : u.isNaN = false) :
    u.edge = Int64.minValue ↔ u ≤ -wordLimit := by
  have hlimit : (-wordLimit).units = -2 ^ 63 * 2 ^ 149 := rfl
  cases hfinite : u.isFinite with
  | false =>
    rcases infinite_cases hu hfinite with rfl | rfl
    · rw [edge_infinity]
      decide
    · rw [edge_negInfinity]
      decide
  | true =>
    constructor
    · intro hedge
      by_contra hnot
      -- The next single is already `2 ^ 39` words further on.
      have hnext : (⟨0xdeffffff⟩ : Single) ≤ u := by
        refine ⟨rfl, hu, ?_⟩
        have hrank := ((Single.not_le hu rfl).mp hnot).2.2
        rw [show (-wordLimit).rank = -0x5f000000 from rfl] at hrank
        rw [show rank ⟨0xdeffffff⟩ = -0x5effffff from rfl]
        omega
      have hunits := (le_iff_units_le rfl hfinite).mp hnext
      rw [show units ⟨0xdeffffff⟩ = (-2 ^ 63 + 2 ^ 39) * 2 ^ 149 from rfl] at hunits
      have hle := le_edge (n := -2 ^ 63 + 2 ^ 39) (by norm_num) (.inr ⟨hfinite, hunits⟩)
      rw [hedge, show Int64.minValue.toInt = -2 ^ 63 from rfl] at hle
      omega
    · intro hle
      have hsum := add_half_le_of_le hfinite hle
      have hsumFinite := isFinite_of_le_of_le (le_add_half hfinite) hsum hfinite rfl
      have hunits := (le_iff_units_le hsumFinite rfl).mp hsum
      rw [hlimit] at hunits
      rw [← Int64.toInt_inj, toInt_edge hsumFinite, show Int64.minValue.toInt = -2 ^ 63 from rfl]
      omega

/-- The nearest edge is the greatest word for what is not below its limit. -/
theorem edge_eq_maxValue_iff (hu : u.isNaN = false) :
    u.edge = Int64.maxValue ↔ wordLimit ≤ u := by
  have hmax : Int64.maxValue.toInt = 2 ^ 63 - 1 := rfl
  cases hfinite : u.isFinite with
  | false =>
    rcases infinite_cases hu hfinite with rfl | rfl
    · rw [edge_infinity]
      decide
    · rw [edge_negInfinity]
      decide
  | true =>
    constructor
    · intro hedge
      -- Below the limit there is room for the half that is added, so the edge is a number below
      -- the greatest word.
      by_contra hnot
      have hsum := add_half_le_of_lt hfinite ((Single.not_le rfl hu).mp hnot)
      have hsumFinite := isFinite_of_le_of_le (le_add_half hfinite) hsum hfinite rfl
      have hunits := (le_iff_units_le hsumFinite rfl).mp hsum
      rw [show units ⟨0x5effffff⟩ = (2 ^ 63 - 2 ^ 39) * 2 ^ 149 from rfl] at hunits
      have htoInt := toInt_edge hsumFinite
      rw [hedge, hmax] at htoInt
      omega
    · intro hle
      have hunits := (le_iff_units_le rfl hfinite).mp hle
      rw [show wordLimit.units = 2 ^ 63 * 2 ^ 149 from rfl] at hunits
      have hedge := le_edge (n := 2 ^ 63 - 1) (by norm_num) (.inr ⟨hfinite, by omega⟩)
      rw [← Int64.toInt_inj, hmax]
      have hle := u.edge.toInt_le
      omega

end Single

/-! ### Coordinates -/

/-- What is in the range and on the axis stays. -/
theorem AxisRange.contains_within? {first last final : Int64} {t : UInt32}
    (hfirst : first.toInt ≤ t.toNat) (hlast : t.toNat ≤ last.toInt)
    (hfinal : t.toNat ≤ final.toInt) (hbound : final.toInt < 2 ^ 32) :
    ∃ r, within? first last final = some r ∧ r.contains t = true := by
  have hzero : (0 : Int64).toInt = 0 := rfl
  have hnonempty : ¬ (last < 0 ∨ final < first) := by
    rw [Int64.lt_iff_toInt_lt, Int64.lt_iff_toInt_lt, hzero]
    omega
  -- Cutting the range off at the ends of the axis does not pass the tile.
  have hlow : (((if first < 0 then 0 else first).toUInt64.toUInt32.toNat : ℕ) : ℤ) ≤ t.toNat := by
    split
    case isTrue => exact Int.natCast_nonneg _
    case isFalse hnonneg =>
      rw [Int64.lt_iff_toInt_lt, hzero] at hnonneg
      rw [toNat_toUInt32_toUInt64 (by omega) (by omega)]
      exact hfirst
  have hhigh : (t.toNat : ℤ) ≤
      ((if final < last then final else last).toUInt64.toUInt32.toNat : ℕ) := by
    split
    case isTrue =>
      rw [toNat_toUInt32_toUInt64 (by omega) (by omega)]
      exact hfinal
    case isFalse hle =>
      rw [Int64.lt_iff_toInt_lt] at hle
      rw [toNat_toUInt32_toUInt64 (by omega) (by omega)]
      exact hlast
  refine ⟨_, if_neg hnonempty, ?_⟩
  rw [contains, Bool.and_eq_true, decide_eq_true_iff, decide_eq_true_iff]
  exact ⟨UInt32.le_iff_toNat_le.mpr (by exact_mod_cast hlow),
    UInt32.le_iff_toNat_le.mpr (by exact_mod_cast hhigh)⟩

/-! ### Axes -/

/-- One axis of a grid. -/
structure TileAxis where
  origin : Single
  tileSize : Single
  count : UInt32

namespace TileAxis

/-- The axis starts somewhere and has tiles of some size, at least one. -/
structure IsLaid (a : TileAxis) : Prop where
  origin : a.origin.isFinite = true
  tileSize : a.tileSize.isFinite = true
  pos : .zero < a.tileSize
  count : 1 ≤ a.count

/-- A position, counted in tiles from the origin. -/
def position (a : TileAxis) (p : Single) : Single := (p - a.origin) / a.tileSize

/-- The tiles between two positions. -/
def range? (a : TileAxis) (low high : Single) : Option AxisRange :=
  axisRange? low high a.origin a.tileSize a.count

/-- The same, if no step of the computation leaves the words. -/
def checkedRange? (a : TileAxis) (low high : Single) : Option (Option AxisRange) := do
  let first := (a.position low).edge
  let last := (a.position high).edge
  let last ← if first = last then word? (last.toInt + 1) else some last
  let first ← word? (first.toInt - 1)
  let final ← word? (a.count.toNat - 1)
  return AxisRange.within? first last final

/-- A range of positions that the words leave room for. -/
structure Admits (a : TileAxis) (low high : Single) : Prop where
  finite_low : low.isFinite = true
  finite_high : high.isFinite = true
  le : low ≤ high
  within : -.wordLimit < a.position low

/-- Two positions cover a tile of the axis: it lies between the tiles that they are in. -/
structure Covers (a : TileAxis) (low high : Single) (t : UInt32) : Prop where
  low : (a.position low).floor.AtMost t.toNat
  high : (a.position high).floor.AtLeast t.toNat

variable {a : TileAxis} {low high : Single}

/-- The tiles of a laid axis have some length. -/
theorem IsLaid.units_pos (ha : a.IsLaid) : 0 < a.tileSize.units :=
  (Single.lt_iff_units_lt rfl ha.tileSize).mp ha.pos

/-- A finite place on a laid axis has a position, which may be infinite. -/
theorem isNaN_position (ha : a.IsLaid) {p : Single} (hp : p.isFinite = true) :
    (a.position p).isNaN = false :=
  Single.isNaN_div (Single.isNearest_sub hp ha.origin).isNaN ha.tileSize ha.units_pos

/-- Positions on a laid axis are ordered as the places are. -/
theorem position_le_position (ha : a.IsLaid) (hlow : low.isFinite = true)
    (hhigh : high.isFinite = true) (hle : low ≤ high) : a.position low ≤ a.position high := by
  have hunits := (Single.le_iff_units_le hlow hhigh).mp hle
  refine Single.div_le_div_of_le ?_ ha.tileSize ha.units_pos
  refine (Single.isNearest_sub hlow ha.origin).le (Single.isNearest_sub hhigh ha.origin) ?_
  exact_mod_cast Int.sub_le_sub_right hunits _

/-- The range between two places goes from one below the edge nearest to the first of them to
the edge nearest to the second one, or one further if these are one edge. -/
theorem range?_eq (a : TileAxis) (low high : Single) : a.range? low high =
    AxisRange.within? ((a.position low).edge - 1)
      (if (a.position low).edge = (a.position high).edge then (a.position high).edge + 1
        else (a.position high).edge)
      (Int64.ofNat a.count.toNat - 1) := rfl

/-- The number of tiles of an axis has 32 bits, so it is the same in 64. -/
theorem toInt_ofNat_count (a : TileAxis) : (Int64.ofNat a.count.toNat).toInt = a.count.toNat :=
  Int64.toInt_ofNat_of_lt (a.count.toNat_lt.trans (by norm_num))

/-- It is never the least word, so taking one from it does not wrap. -/
theorem ofNat_count_ne_minValue (a : TileAxis) :
    Int64.ofNat a.count.toNat ≠ Int64.minValue := by
  rw [Ne, ← Int64.toInt_inj, toInt_ofNat_count, show Int64.minValue.toInt = -2 ^ 63 from rfl]
  omega

/-- The steps stay within the words unless an edge is at the end that it is moved beyond. -/
theorem checkedRange?_eq (a : TileAxis) (low high : Single) :
    a.checkedRange? low high =
      if (a.position low).edge = Int64.minValue ∨
          (a.position low).edge = (a.position high).edge ∧ (a.position high).edge = Int64.maxValue
      then none else some (a.range? low high) := by
  have hfinal : word? (a.count.toNat - 1) = some (Int64.ofNat a.count.toNat - 1) := by
    rw [← toInt_ofNat_count, word?_sub_one, if_neg a.ofNat_count_ne_minValue]
  rw [range?_eq, checkedRange?, hfinal, word?_sub_one, word?_add_one]
  generalize (a.position low).edge = first
  generalize (a.position high).edge = last
  by_cases hsame : first = last
  · subst hsame
    by_cases hmin : first = Int64.minValue <;> by_cases hmax : first = Int64.maxValue <;>
      simp [hmin, hmax]
  · by_cases hmin : first = Int64.minValue <;> simp [hsame, hmin]

/-- No step leaves the words exactly where the lower position is within them. -/
theorem checkedRange?_eq_some_iff (ha : a.IsLaid) (hlow : low.isFinite = true)
    (hhigh : high.isFinite = true) (hle : low ≤ high) :
    a.checkedRange? low high = some (a.range? low high) ↔
      -.wordLimit < a.position low ∧ a.position low < .wordLimit := by
  have hnumber := isNaN_position ha hlow
  have hnumber' := isNaN_position ha hhigh
  have hsteps : a.checkedRange? low high = some (a.range? low high) ↔
      ¬ ((a.position low).edge = Int64.minValue ∨
        (a.position low).edge = (a.position high).edge ∧
          (a.position high).edge = Int64.maxValue) := by
    rw [checkedRange?_eq]
    split
    case isTrue hover => simp only [hover, not_true, reduceCtorEq]
    case isFalse hwithin => simp only [hwithin, not_false_iff]
  -- At the greatest word both edges are the same.
  have hends : (a.position low).edge = (a.position high).edge ∧
      (a.position high).edge = Int64.maxValue ↔ .wordLimit ≤ a.position low := by
    rw [← Single.edge_eq_maxValue_iff hnumber]
    constructor
    · rintro ⟨hsame, hmax⟩
      exact hsame.trans hmax
    · intro hmax
      have hbeyond := Single.le_trans ((Single.edge_eq_maxValue_iff hnumber).mp hmax)
        (position_le_position ha hlow hhigh hle)
      have hmax' := (Single.edge_eq_maxValue_iff hnumber').mpr hbeyond
      exact ⟨hmax.trans hmax'.symm, hmax'⟩
  rw [hsteps, hends, Single.edge_eq_minValue_iff hnumber, not_or, Single.not_le hnumber rfl,
    Single.not_le rfl hnumber]

/-- At the least word and below, the range is empty: one less is the greatest word. -/
theorem range?_eq_none (ha : a.IsLaid) (hlow : low.isFinite = true)
    (hbelow : a.position low ≤ -.wordLimit) : a.range? low high = none := by
  have hcount := a.count.toNat_lt
  have hedge := (Single.edge_eq_minValue_iff (isNaN_position ha hlow)).mpr hbelow
  rw [range?_eq, hedge]
  refine if_pos (.inr ?_)
  rw [Int64.lt_iff_toInt_lt, toInt_pred a.ofNat_count_ne_minValue, toInt_ofNat_count,
    show (Int64.minValue - 1).toInt = 2 ^ 63 - 1 from rfl]
  omega

/-- Above the least word, the range contains every tile of the axis that is covered. -/
theorem exists_range_of_covers (ha : a.IsLaid) (h : a.Admits low high) {t : UInt32}
    (ht : t < a.count) (hcovers : a.Covers low high t) :
    ∃ r, a.range? low high = some r ∧ r.contains t = true := by
  have ht' := UInt32.lt_iff_toNat_lt.mp ht
  have hcount := a.count.toNat_lt
  have hnumber := isNaN_position ha h.finite_low
  -- What is above the least word and has a floor below an integer is finite.
  have hfinite : (a.position low).isFinite = true := by
    by_contra hinfinite
    rcases Single.infinite_cases hnumber (Bool.not_eq_true _ ▸ hinfinite) with heq | heq
    · have hlowest := hcovers.low
      rw [heq, Single.floor_infinity] at hlowest
      rcases hlowest with h | ⟨h, -⟩ <;> cases h
    · have hwithin := h.within
      rw [heq] at hwithin
      exact absurd hwithin (by decide)
  have hfirst := Single.edge_le (by omega) (by omega) hfinite
    ((Single.atMost_floor_iff hfinite).mp hcovers.low)
  have hlast := Single.le_edge (by omega)
    ((Single.atLeast_floor_iff (isNaN_position ha h.finite_high)).mp hcovers.high)
  have hmin : (a.position low).edge ≠ Int64.minValue := by
    rw [Ne, Single.edge_eq_minValue_iff hnumber, Single.not_le hnumber rfl]
    exact h.within
  have hfinal : (Int64.ofNat a.count.toNat - 1).toInt = a.count.toNat - 1 := by
    rw [toInt_pred a.ofNat_count_ne_minValue, toInt_ofNat_count]
  rw [range?_eq]
  refine AxisRange.contains_within? ?_ ?_ ?_ ?_
  · rw [toInt_pred hmin]
    omega
  · split
    case isTrue hsame =>
      -- One edge for both is moved up, and is too near for the greatest word.
      have hmax : (a.position high).edge ≠ Int64.maxValue := by
        rw [← hsame, Ne, ← Int64.toInt_inj, show Int64.maxValue.toInt = 2 ^ 63 - 1 from rfl]
        omega
      rw [toInt_succ hmax]
      omega
    case isFalse => exact hlast
  · rw [hfinal]
    omega
  · rw [hfinal]
    omega

/-! ### What spans an axis -/

/-- Two positions span the axis: the lower one is not above the origin, and the higher one is
not below the exact end of the last tile. -/
structure Spans (a : TileAxis) (low high : Single) : Prop where
  low : low ≤ a.origin
  high : a.origin.units + a.count.toNat * a.tileSize.units ≤ high.units

/-- A place that is not behind the origin of an axis has no positive position. -/
theorem position_le_zero (ha : a.IsLaid) (hlow : low.isFinite = true) (hle : low ≤ a.origin) :
    a.position low ≤ .zero := by
  have hunits : (low.units : ℚ) ≤ a.origin.units := by
    exact_mod_cast (Single.le_iff_units_le hlow ha.origin).mp hle
  have hzero : Single.zero.IsNearest 0 := Single.isNearest_units (a := .zero) rfl
  have hdistance : low - a.origin ≤ .zero :=
    (Single.isNearest_sub hlow ha.origin).le hzero (by linarith)
  refine Single.le_trans (Single.div_le_div_of_le hdistance ha.tileSize ha.units_pos) ?_
  refine (Single.isNearest_div rfl ha.tileSize ha.units_pos.ne').le hzero ?_
  rw [show Single.zero.units = 0 from rfl, Int.cast_zero, zero_div, zero_mul]

/-- On an axis of at most `2 ^ 24` tiles, rounding the difference and the quotient does not lose
the last tile. -/
theorem atLeast_position (ha : a.IsLaid) (hhigh : high.isFinite = true)
    (hfew : a.count.toNat ≤ 2 ^ 24)
    (hle : a.origin.units + a.count.toNat * a.tileSize.units ≤ high.units) :
    (a.position high).AtLeast ((a.count.toNat : ℤ) - 1) := by
  have hpos := ha.units_pos
  have hpos' : (0 : ℚ) < a.tileSize.units := by exact_mod_cast hpos
  have hone : 1 ≤ a.count.toNat := UInt32.le_iff_toNat_le.mp ha.count
  have hdistance := Single.isNearest_sub hhigh ha.origin
  have hextent : ((a.count.toNat * a.tileSize.units : ℤ) : ℚ) ≤ high.units - a.origin.units := by
    exact_mod_cast (by omega : a.count.toNat * a.tileSize.units ≤ high.units - a.origin.units)
  have hextent_nonneg : (0 : ℚ) ≤ (a.count.toNat * a.tileSize.units : ℤ) := by
    exact_mod_cast Int.mul_nonneg (Int.natCast_nonneg _) hpos.le
  unfold position
  cases hfinite : (high - a.origin).isFinite with
  | false =>
    rw [hdistance.eq_infinity (hextent_nonneg.trans hextent) hfinite,
      Single.infinity_div ha.tileSize hpos]
    exact .inl rfl
  | true =>
    have hrounded := hdistance.sub_le_units hfinite hextent
    rw [abs_of_nonneg hextent_nonneg] at hrounded
    -- The rounding takes less than one tile off.
    have htiles : ((a.count.toNat - 1 : ℕ) : ℚ) ≤ (high - a.origin).units / a.tileSize.units := by
      rw [le_div_iff₀ hpos', Nat.cast_sub hone]
      have hfew' : (a.count.toNat : ℚ) ≤ 2 ^ 24 := by exact_mod_cast hfew
      push_cast at hrounded ⊢
      have hpart : (a.count.toNat : ℚ) * a.tileSize.units / 2 ^ 24 ≤ a.tileSize.units := by
        rw [div_le_iff₀ (by positivity), mul_comm]
        gcongr
      linarith
    have hquotient := Single.isNearest_div hfinite ha.tileSize hpos.ne'
    have hscaled : ((a.count.toNat - 1 : ℕ) : ℚ) * 2 ^ 149
        ≤ (high - a.origin).units / a.tileSize.units * 2 ^ 149 := by gcongr
    cases hfinite' : ((high - a.origin) / a.tileSize).isFinite with
    | false => exact .inl (hquotient.eq_infinity (le_trans (by positivity) hscaled) hfinite')
    | true =>
      have hunits := hquotient.le_units_of_short hfinite' (by omega) hscaled
      rw [Nat.cast_sub hone, Nat.cast_one] at hunits
      exact .inr ⟨hfinite', hunits⟩

/-- What spans the axis covers all of its tiles. -/
theorem Spans.covers (hspans : a.Spans low high) (ha : a.IsLaid) (h : a.Admits low high)
    (hfew : a.count.toNat ≤ 2 ^ 24) {t : UInt32} (ht : t < a.count) : a.Covers low high t := by
  have ht' := UInt32.lt_iff_toNat_lt.mp ht
  have hle := position_le_zero ha h.finite_low hspans.low
  have hfinite := Single.isFinite_of_le_of_le (Single.le_of_lt h.within) hle rfl rfl
  constructor
  · have hunits := (Single.le_iff_units_le hfinite rfl).mp hle
    rw [show Single.zero.units = 0 from rfl] at hunits
    rw [Single.atMost_floor_iff hfinite]
    omega
  · rw [Single.atLeast_floor_iff (isNaN_position ha h.finite_high)]
    exact (atLeast_position ha h.finite_high hfew hspans.high).mono (by omega)

end TileAxis

/-! ### Bins -/

namespace Grid

/-- The columns of a grid. -/
def columns (g : Grid) : TileAxis := ⟨g.origin.x, g.tileSize, g.width⟩

/-- The rows of a grid. -/
def rows (g : Grid) : TileAxis := ⟨g.origin.z, g.tileSize, g.height⟩

/-- Both axes of the grid are laid. -/
structure IsLaid (g : Grid) : Prop where
  columns : g.columns.IsLaid
  rows : g.rows.IsLaid

/-- The words leave room for the sides of a box. -/
structure Admits (g : Grid) (b : Box) : Prop where
  columns : g.columns.Admits b.min.x b.max.x
  rows : g.rows.Admits b.min.z b.max.z

/-- A box covers a tile. -/
structure Covers (g : Grid) (b : Box) (c : Cell) : Prop where
  columns : g.columns.Covers b.min.x b.max.x c.x
  rows : g.rows.Covers b.min.z b.max.z c.z

/-- A box spans the grid. -/
structure Spans (g : Grid) (b : Box) : Prop where
  columns : g.columns.Spans b.min.x b.max.x
  rows : g.rows.Spans b.min.z b.max.z

variable {g : Grid} {b : Box} {c : Cell}

/-- The tiles that a box can reach are found axis by axis. -/
theorem tileRange?_eq (g : Grid) (b : Box) : g.tileRange? b = do
    return ⟨← g.columns.range? b.min.x b.max.x, ← g.rows.range? b.min.z b.max.z⟩ := rfl

/-- A box that the words leave room for reaches every tile that it covers. -/
theorem reaches_of_covers (hg : g.IsLaid) (hb : g.Admits b) (hc : g.contains c = true)
    (hcovers : g.Covers b c) : reaches c (g.tileRange? b) = true := by
  obtain ⟨hx, hz⟩ := contains_iff.mp hc
  obtain ⟨columns, hcolumns, hcolumn⟩ := TileAxis.exists_range_of_covers hg.columns hb.columns
    (UInt32.lt_iff_toNat_lt.mpr hx) hcovers.columns
  obtain ⟨rows, hrows, hrow⟩ := TileAxis.exists_range_of_covers hg.rows hb.rows
    (UInt32.lt_iff_toNat_lt.mpr hz) hcovers.rows
  have hrange : g.tileRange? b = some ⟨columns, rows⟩ := by
    rw [tileRange?_eq, hcolumns, hrows]
    rfl
  rw [hrange, reaches, Option.any_some, TileRange.contains, hcolumn, hrow]
  rfl

end Grid

/-- The bin has every part of a solid whose bounds have some property: the whole of a box, the
polygons of a mesh, and the bounds of what can be destroyed. -/
structure TileBin.Keeps (bin : TileBin) (P : Box → Prop) (solid : Solid) (i : Nat) : Prop where
  box : solid.mesh = none → P solid.bounds → i ∈ bin.boxes
  polygon : ∀ mesh, solid.mesh = some mesh → ∀ k p, mesh.polygons[k]? = some p → P p.bounds →
    ∃ places, (i, places) ∈ bin.meshes ∧ k ∈ places
  destructible : solid.isDestructible = true → P solid.bounds →
    (i, solid.bounds) ∈ bin.destructibles

/-- A bin that keeps all parts of a solid of one sort keeps those of a narrower one. -/
theorem TileBin.Keeps.mono {bin : TileBin} {P Q : Box → Prop} {solid : Solid} {i : Nat}
    (h : bin.Keeps P solid i) (hmono : ∀ b, Q b → P b) : bin.Keeps Q solid i where
  box hmesh hbounds := h.box hmesh (hmono _ hbounds)
  polygon mesh hmesh k p hk hbounds := h.polygon mesh hmesh k p hk (hmono _ hbounds)
  destructible hdestructible hbounds := h.destructible hdestructible (hmono _ hbounds)

/-- A bin keeps the parts of a solid whose ranges contain its tile. -/
theorem TileBin.Registered.keeps {bin : TileBin} {solids : Array Solid} {g : Grid} {c : Cell}
    (h : bin.Registered solids g c) {i : Nat} {solid : Solid} (hi : solids[i]? = some solid) :
    bin.Keeps (fun b => reaches c (g.tileRange? b) = true) solid i where
  box hmesh hreaches := (h.mem_boxes i).mpr ⟨solid, hi, hmesh, hreaches⟩
  polygon mesh hmesh k p hk hreaches := by
    have hlisted := (h.mem_meshes i).mpr
      ⟨solid, mesh, hi, hmesh, p, Array.mem_of_getElem? hk, hreaches⟩
    obtain ⟨⟨_, places⟩, hmem, rfl⟩ := List.mem_map.mp hlisted
    obtain ⟨solid', mesh', hi', hmesh', hplaces⟩ := h.mem_polygons _ places hmem
    obtain rfl := Option.some.inj (hi.symm.trans hi')
    obtain rfl := Option.some.inj (hmesh.symm.trans hmesh')
    exact ⟨places, hmem, (hplaces k).mpr ⟨p, hk, hreaches⟩⟩
  destructible hdestructible hreaches :=
    (h.mem_destructibles i solid.bounds).mpr ⟨solid, hi, hdestructible, hreaches, rfl⟩

/-- So does every bin of a grid, each of which belongs to a tile of the grid. -/
theorem keeps_of_mem_binSolids {solids : Array Solid} {g : Grid} {bin : TileBin}
    (hbin : bin ∈ binSolids solids g) {i : Nat} {solid : Solid} (hi : solids[i]? = some solid) :
    g.contains bin.cell = true ∧
      bin.Keeps (fun b => reaches bin.cell (g.tileRange? b) = true) solid i := by
  rw [binSolids_eq, List.mem_toArray, List.mem_map] at hbin
  obtain ⟨c, hc, rfl⟩ := hbin
  exact ⟨Grid.mem_cells_iff.mp hc, (TileBin.registered_of solids g c).keeps hi⟩

/-- No covered tile is missed above the least word. -/
theorem Grid.covered_tiles_reached {g : Grid} (hg : g.IsLaid) :
    -- Along an axis: where the steps stay within the words, and what the range contains.
    (∀ a ∈ [g.columns, g.rows], ∀ low high : Single, low.isFinite = true → high.isFinite = true →
      low ≤ high →
        (a.checkedRange? low high = some (a.range? low high) ↔
          -.wordLimit < a.position low ∧ a.position low < .wordLimit) ∧
        (-.wordLimit < a.position low → ∀ t < a.count, a.Covers low high t →
          ∃ r, a.range? low high = some r ∧ r.contains t = true) ∧
        (a.position low ≤ -.wordLimit → a.range? low high = none)) ∧
      -- In the bins: every tile has the parts of the solids that cover it.
      (∀ solids : Array Solid, ∀ i solid, solids[i]? = some solid → ∀ bin ∈ binSolids solids g,
        bin.Keeps (fun b => g.Admits b ∧ g.Covers b bin.cell) solid i) ∧
      -- What spans the grid covers all tiles.
      (g.width.toNat ≤ 2 ^ 24 → g.height.toNat ≤ 2 ^ 24 → ∀ b, g.Admits b → g.Spans b →
        ∀ c ∈ g.cells, g.Covers b c) := by
  refine ⟨?_, ?_, ?_⟩
  · intro a ha low high hlow hhigh hle
    have hlaid : a.IsLaid := by
      rcases List.mem_pair.mp ha with rfl | rfl
      · exact hg.columns
      · exact hg.rows
    refine ⟨TileAxis.checkedRange?_eq_some_iff hlaid hlow hhigh hle, ?_,
      TileAxis.range?_eq_none hlaid hlow⟩
    intro hwithin t ht hcovers
    exact TileAxis.exists_range_of_covers hlaid ⟨hlow, hhigh, hle, hwithin⟩ ht hcovers
  · intro solids i solid hi bin hbin
    obtain ⟨hcell, hkeeps⟩ := keeps_of_mem_binSolids hbin hi
    exact hkeeps.mono fun b ⟨hadmits, hcovers⟩ => reaches_of_covers hg hadmits hcell hcovers
  · intro hwidth hheight b hadmits hspans c hc
    obtain ⟨hx, hz⟩ := contains_iff.mp (mem_cells_iff.mp hc)
    exact ⟨hspans.columns.covers hg.columns hadmits.columns hwidth (UInt32.lt_iff_toNat_lt.mpr hx),
      hspans.rows.covers hg.rows hadmits.rows hheight (UInt32.lt_iff_toNat_lt.mpr hz)⟩

/-- Two tiles of size one in a row. -/
def tilePair : Grid := ⟨2, 1, .one, .splat .zero, .zero, .one⟩

/-- A box solid that reaches as far to both sides along both axes. -/
def wideSolid (reach : Single) : Solid :=
  ⟨none, ⟨⟨-reach, .zero, -reach⟩, ⟨reach, .one, reach⟩⟩, ⟨.plain, []⟩⟩

/-- The two tiles in a row are laid. -/
theorem isLaid_tilePair : tilePair.IsLaid :=
  ⟨⟨rfl, rfl, by decide, by decide⟩, ⟨rfl, rfl, by decide, by decide⟩⟩

/-- A box of a million tiles to each side is in both tiles. -/
theorem tilePair_reached : tilePair.IsLaid ∧
    ∀ bin ∈ binSolids #[wideSolid ⟨0x49742400⟩] tilePair, 0 ∈ bin.boxes := by
  obtain ⟨-, hbins, hspans⟩ := Grid.covered_tiles_reached isLaid_tilePair
  refine ⟨isLaid_tilePair, fun bin hbin => ?_⟩
  have hadmits : tilePair.Admits (wideSolid ⟨0x49742400⟩).bounds :=
    ⟨⟨rfl, rfl, by decide, by decide +kernel⟩, ⟨rfl, rfl, by decide, by decide +kernel⟩⟩
  have hspan : tilePair.Spans (wideSolid ⟨0x49742400⟩).bounds :=
    ⟨⟨by decide, by decide +kernel⟩, ⟨by decide, by decide +kernel⟩⟩
  have hcell := Grid.mem_cells_iff.mpr
    (keeps_of_mem_binSolids (i := 0) hbin rfl).1
  exact (hbins _ 0 _ rfl bin hbin).box rfl
    ⟨hadmits, hspans (by decide) (by decide) _ hadmits hspan _ hcell⟩

/-- A box of `10 ^ 30` tiles to each side covers both tiles and is in neither. Its lower edge
is the least word, and one less than that is the greatest. -/
theorem wideSolid_out_of_reach :
    let low : Single := ⟨0xf149f2ca⟩
    let high : Single := ⟨0x7149f2ca⟩
    tilePair.IsLaid ∧ low.isFinite = true ∧ high.isFinite = true ∧ low ≤ high ∧
      (∀ t < tilePair.width, tilePair.columns.Covers low high t) ∧
      tilePair.columns.checkedRange? low high = none ∧
      tilePair.columns.range? low high = none ∧
      ∀ bin ∈ binSolids #[wideSolid high] tilePair, bin.boxes = [] := by
  refine ⟨isLaid_tilePair, rfl, rfl, by decide, ?_, by decide +kernel, by decide +kernel,
    by decide +kernel⟩
  intro t ht
  have ht' : t.toNat < 2 := UInt32.lt_iff_toNat_lt.mp ht
  have hlow : (tilePair.columns.position ⟨0xf149f2ca⟩).floor.AtMost 0 := by decide +kernel
  have hhigh : (tilePair.columns.position ⟨0x7149f2ca⟩).floor.AtLeast 1 := by decide +kernel
  exact ⟨hlow.mono (by omega), hhigh.mono (by omega)⟩

end Battlemap
