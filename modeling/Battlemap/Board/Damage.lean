import Battlemap.Board.Basic
import Std.Data.TreeMap
import Std.Data.TreeSet

/-!
# `Battlemap.Board.Damage`: damage and collapse

A damage event strikes the tiles under its box. On every tile it visits
it takes one integrity point from each floor or wall that reaches into
one of the visit's height spans. A level that falls below the collapse
threshold is destroyed, and its own span goes on to the four cardinal
neighbours of its tile.

Visits wait on a stack. A tile is visited at most once in an event:
spans that reach it while it waits are added to its visit, and spans
that come later are lost. Whether a tile has been reached, and where on
the stack its visit waits, is remembered under its key, which packs both
coordinates into 32 bits; on grids wider or taller than 65536 tiles two
tiles can share a key.

An index that is not in its array stops the event: every step answers
`none` then, and so does `Board.damage?`. The index of a level, the start
of its tile's run and its position, is added up as a natural number; the
sum fits 32 bits on every map with at most 2^32 levels. A run of visits
ends because a visit that puts tiles on the stack uses up cells with new
keys (`Cascade.workload`).
-/

set_option autoImplicit false

namespace Battlemap

/-- A level whose integrity drops below this collapses. -/
def collapseThreshold : Int32 := 2

/-- A level that damage has struck, with its integrity afterwards. -/
structure Strike where
  cell : Cell
  /-- The position of the level in its tile. -/
  level : Nat
  integrity : Int32
  destroyed : Bool
deriving DecidableEq

/-- What an event did: the tiles it visited and the levels it struck,
each in the order in which that happened. -/
structure DamageReport where
  visited : Array Cell
  strikes : Array Strike
deriving DecidableEq, Inhabited

/-- How many levels the event destroyed. -/
def DamageReport.destroyedCount (r : DamageReport) : Nat :=
  r.strikes.countP Strike.destroyed

/-- The integrity after one strike. -/
def wornIntegrity (integrity : Int32) : Int32 :=
  let less := integrity - 1
  if less < 0 then 0 else less

/-- The header after one strike. -/
def LevelHeader.struck (h : LevelHeader) : LevelHeader :=
  let worn := { h with integrity := wornIntegrity h.integrity }
  if worn.integrity < collapseThreshold then worn.setFlag destroyedFlag true else worn

/-- Whether a strike takes effect: the level stands and is a floor or a
wall. -/
def LevelHeader.isVulnerable (h : LevelHeader) : Bool :=
  !h.isDestroyed && h.kind.isDamageable

/-- The key of a tile: the column in the upper and the row in the lower
16 bits. -/
def Cell.key (c : Cell) : UInt32 := (c.x <<< 16) ||| (c.z &&& 0xffff)

/-- The heights that a collapsed level passes on to its neighbours. -/
def Grid.collapseSpan (g : Grid) (level : Level) : Span :=
  ⟨level.baseHeight, level.topHeight.min g.maxHeight⟩

/-! ### Visiting one tile -/

/-- A tile that waits for its visit, with the spans that have reached
it. -/
structure Visit where
  cell : Cell
  spans : List Span
deriving DecidableEq

/-- Whether the level reaches into one of the spans. -/
def Visit.hits (v : Visit) (level : Level) : Bool := v.spans.any level.overlaps

/-- The state of striking the levels of one tile. -/
structure Sweep where
  data : Array LevelData
  /-- The spans of the levels that collapsed. -/
  collapsed : List Span
  strikes : Array Strike

/-- Strike a level that stands at a position of the visited tile. A level
without data is passed over. -/
def Sweep.strikeLevel (g : Grid) (v : Visit) (sweep : Sweep) (position : Nat) (level : Level) :
    Sweep :=
  if v.hits level then
    match sweep.data[level.dataIndex.toNat]? with
    | none => sweep
    | some data =>
      if data.header.isVulnerable then
        let header := data.header.struck
        { data := sweep.data.modify level.dataIndex.toNat fun d => { d with header := header }
          collapsed :=
            if header.isDestroyed then sweep.collapsed ++ [g.collapseSpan level]
            else sweep.collapsed
          strikes := sweep.strikes.push ⟨v.cell, position, header.integrity, header.isDestroyed⟩ }
      else sweep
  else sweep

/-- Strike the level at a position of a tile; `none` if the level array
ends before it. -/
def Sweep.strike (b : Board) (v : Visit) (tile : Tile) (sweep : Sweep) (position : Nat) :
    Option Sweep :=
  b.levels[tile.first + position]?.map (sweep.strikeLevel b.grid v position)

/-! ### The cascade -/

/-- The state of an event. -/
structure Cascade where
  data : Array LevelData
  /-- The visits to come; the last one is next. -/
  stack : Array Visit
  /-- The keys that were ever put on the stack. -/
  reached : Std.TreeSet UInt32
  /-- Where on the stack the visit of a key waits. -/
  pending : Std.TreeMap UInt32 Nat
  visited : Array Cell
  strikes : Array Strike

namespace Cascade

/-- Put a visit on the stack. -/
def push (s : Cascade) (v : Visit) : Cascade :=
  let slot := s.stack.size
  { s with
    stack := s.stack.push v
    reached := s.reached.insert v.cell.key
    pending := s.pending.insert v.cell.key slot }

/-- Take the next visit, which is `v`, off the stack. -/
def pop (s : Cascade) (v : Visit) : Cascade :=
  { s with stack := s.stack.pop, pending := s.pending.erase v.cell.key }

/-- Add spans to the visit that waits in a slot of the stack; `none` if
the stack ends before it. -/
def extend (spans : List Span) (s : Cascade) (slot : Nat) : Option Cascade :=
  if slot < s.stack.size then
    some { s with stack := s.stack.modify slot fun v => { v with spans := v.spans ++ spans } }
  else none

/-- Pass the spans of collapsed levels on to a tile. -/
def reach (spans : List Span) (s : Cascade) (c : Cell) : Option Cascade :=
  match s.pending[c.key]? with
  | some slot => s.extend spans slot
  | none => if s.reached.contains c.key then some s else some (s.push ⟨c, spans⟩)

/-- Strike the levels of the visited tile from the bottom up. -/
def sweep (b : Board) (v : Visit) (data : Array LevelData) (strikes : Array Strike) :
    Option Sweep := do
  let tile ← b.tiles[b.grid.tileIndex v.cell]?
  (List.range tile.count).foldlM (Sweep.strike b v tile) ⟨data, [], strikes⟩

/-- Visit a tile that was taken off the stack. -/
def visit (b : Board) (s : Cascade) (v : Visit) : Option Cascade := do
  let ⟨data, stack, reached, pending, visited, strikes⟩ := s
  let swept ← sweep b v data strikes
  let after : Cascade :=
    ⟨swept.data, stack, reached, pending, visited.push v.cell, swept.strikes⟩
  if swept.collapsed.isEmpty then return after
  else (b.grid.neighbours v.cell).foldlM (reach swept.collapsed) after

/-! ### Visits come to an end

Every visit is taken off the stack, and whatever a visit puts there has a
key that no tile had before, while the grid has only so many cells. -/

/-- The cells whose keys no visit has had yet. -/
def unreached (g : Grid) (s : Cascade) : Nat :=
  g.cells.countP fun c => !s.reached.contains c.key

/-- A bound on the visits that can still be made. -/
def workload (g : Grid) (s : Cascade) : Nat := s.stack.size + s.unreached g

/-- A tile with a new key uses up at least its own cell. -/
theorem unreached_push {g : Grid} {s : Cascade} {v : Visit} (hc : g.contains v.cell = true)
    (hk : s.reached.contains v.cell.key = false) : (s.push v).unreached g < s.unreached g := by
  obtain ⟨before, after, hsplit⟩ := List.append_of_mem (Grid.mem_cells_iff.mpr hc)
  have fewer (cells : List Cell) :
      cells.countP (fun c => !(s.push v).reached.contains c.key)
        ≤ cells.countP fun c => !s.reached.contains c.key :=
    List.countP_mono_left fun c _ h => by simp_all [push]
  have hbefore := fewer before
  have hafter := fewer after
  have hself : (s.push v).reached.contains v.cell.key = true := by simp [push]
  rw [unreached, unreached, hsplit, List.countP_append, List.countP_append, List.countP_cons,
    List.countP_cons, hself, hk]
  simp only [Bool.not_true, Bool.not_false, Bool.false_eq_true, if_true, if_false]
  omega

/-- A visit of a tile with a new key adds no more to the stack than it takes from the cells that
are left. -/
theorem push_workload {g : Grid} {s : Cascade} {v : Visit} (hc : g.contains v.cell = true)
    (hk : s.reached.contains v.cell.key = false) : (s.push v).workload g ≤ s.workload g := by
  have hless := unreached_push hc hk
  have hsize : (s.push v).stack.size = s.stack.size + 1 := Array.size_push _
  unfold workload
  omega

/-- Reaching a tile does not raise the bound, whether the tile is new, waiting or done. -/
theorem reach_workload {g : Grid} {spans : List Span} {s t : Cascade} {c : Cell}
    (hc : g.contains c = true) (h : reach spans s c = some t) : t.workload g ≤ s.workload g := by
  unfold reach at h
  split at h
  case h_1 slot _ =>
    unfold extend at h
    split at h
    · cases h
      simp [workload, unreached]
    · cases h
  case h_2 =>
    split at h
    case isTrue => cases h; exact Nat.le_refl _
    case isFalse hk =>
      cases h
      exact push_workload hc (Bool.not_eq_true _ ▸ hk)

/-- So neighbour after neighbour can be reached without raising the bound. -/
theorem foldlM_reach_workload {g : Grid} {spans : List Span} {cells : List Cell} {s t : Cascade}
    (hc : ∀ c ∈ cells, g.contains c = true) (h : cells.foldlM (reach spans) s = some t) :
    t.workload g ≤ s.workload g := by
  induction cells generalizing s with
  | nil => cases h; exact Nat.le_refl _
  | cons c cells ih =>
    rw [List.foldlM_cons, Option.bind_eq_bind, Option.bind_eq_some_iff] at h
    obtain ⟨u, hu, ht⟩ := h
    exact Nat.le_trans (ih (fun c' hc' => hc c' (by simp [hc'])) ht)
      (reach_workload (hc c (by simp)) hu)

/-- A visit leaves no more work than there was behind it on the stack. -/
theorem visit_workload {b : Board} {s t : Cascade} {v : Visit} (h : visit b s v = some t) :
    t.workload b.grid ≤ s.workload b.grid := by
  simp only [visit, Option.bind_eq_bind, Option.bind_eq_some_iff] at h
  obtain ⟨swept, -, h⟩ := h
  split at h
  · cases h
    exact Nat.le_refl _
  · have hle := foldlM_reach_workload (fun c hc => Grid.contains_of_mem_neighbours hc) h
    exact hle

/-- Taking a visit off the stack lowers the bound, which is why the visits come to an end. -/
theorem pop_workload {g : Grid} {s : Cascade} {v : Visit} (h : s.stack.back? = some v) :
    (s.pop v).workload g < s.workload g := by
  have hpos : 0 < s.stack.size := by
    rw [Array.back?_eq_getElem?] at h
    exact Nat.zero_lt_of_lt (Array.getElem?_eq_some_iff.mp h).1
  have hpop : (s.pop v).stack.size = s.stack.size - 1 := Array.size_pop
  have hsame : (s.pop v).unreached g = s.unreached g := rfl
  unfold workload
  omega

/-- Visit tiles until none waits. -/
def run (b : Board) (s : Cascade) : Option Cascade :=
  match _hnext : s.stack.back? with
  | none => some s
  | some v =>
    match _hvisit : (s.pop v).visit b v with
    | none => none
    | some t => run b t
termination_by s.workload b.grid
decreasing_by exact Nat.lt_of_le_of_lt (visit_workload _hvisit) (pop_workload _hnext)

end Cascade

namespace Board

/-- Whether a damage box misses the ground plan of the map. -/
def isMissedBy (b : Board) (damage : Box) : Bool :=
  let bounds := b.grid.bounds
  decide (damage.max.x < bounds.min.x) || decide (bounds.max.x < damage.min.x)
    || decide (damage.max.z < bounds.min.z) || decide (bounds.max.z < damage.min.z)

/-- The tiles that a damage box strikes by itself. -/
def struckCells (b : Board) (damage : Box) : List Cell :=
  if b.tiles.isEmpty || b.isMissedBy damage then []
  else
    Grid.rectangle (b.grid.cellAt damage.min.x damage.min.z)
      (b.grid.cellAt damage.max.x damage.max.z)

/-- The state before the first visit. -/
def cascadeOf (b : Board) (damage : Box) : Cascade :=
  (b.struckCells damage).foldl (fun s c => s.push ⟨c, [⟨damage.min.y, damage.max.y⟩]⟩)
    ⟨b.data, #[], ∅, ∅, #[], #[]⟩

/-- Apply a damage event; `none` if it comes upon an index that is not in
its array, which happens on no consistent board. -/
def damage? (b : Board) (damage : Box) : Option (Board × DamageReport) :=
  ((b.cascadeOf damage).run b).map fun final =>
    ({ b with data := final.data }, ⟨final.visited, final.strikes⟩)

/-- Apply a damage event to a consistent board. -/
def damage (b : Board) (damage : Box) : Board × DamageReport :=
  (b.damage? damage).getD (b, ⟨#[], #[]⟩)

end Board

end Battlemap
