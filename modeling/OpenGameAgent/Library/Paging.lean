import Mathlib.Data.List.Basic
import Mathlib.Logic.Function.Basic

/-!
# Pages of an ascending list

A reader asks for the rows behind a cursor, a page at a time, and goes on behind the last
row of the page.  Between two pages rows may come and go.

* `pageAfter`, `cursorAfter` — the page behind a cursor, and the cursor of the next page.
* `mem_pageAfter_or_cursorAfter` — a row behind the cursor is in the page, or still behind
  the next cursor.
* `Reading` — a reader over rows that change; `Reading.Larger` says that a row admitted
  behind the cursor's row stands behind it.
* `Reading.Tracks.losesNothing` — such a row appears in a page, or goes away, or the reader
  has not come to it yet.
-/

namespace OpenGameAgent

section Pages

variable {α : Type} (key : α → Nat) (rows : List α) (after limit : Nat)

/-- The rows behind a cursor. -/
def behind : List α := rows.filter fun row => after < key row

/-- The page behind a cursor. -/
def pageAfter : List α := (behind key rows after).take limit

/-- The cursor of the next page, if there is more. -/
def cursorAfter : Option Nat :=
  if (behind key rows after).length > limit then (pageAfter key rows after limit).getLast?.map key
  else none

variable {key rows after limit}

theorem mem_behind {row : α} : row ∈ behind key rows after ↔ row ∈ rows ∧ after < key row := by
  simp [behind]

/-- The next cursor is the key of a row of the page. -/
theorem exists_of_cursorAfter {cursor : Nat} (h : cursorAfter key rows after limit = some cursor) :
    ∃ row ∈ rows, key row = cursor ∧ after < cursor := by
  unfold cursorAfter at h
  split at h
  · obtain ⟨row, hlast, rfl⟩ := Option.map_eq_some_iff.1 h
    have hmem := List.mem_of_mem_take (List.mem_of_getLast? hlast)
    exact ⟨row, (mem_behind.1 hmem).1, rfl, (mem_behind.1 hmem).2⟩
  · cases h

/-- A row behind the cursor is in the page, or behind the next cursor. -/
theorem mem_pageAfter_or_cursorAfter (h : rows.Pairwise fun a b => key a < key b)
    (hlimit : 0 < limit) {row : α} (hrow : row ∈ rows) (hafter : after < key row) :
    row ∈ pageAfter key rows after limit ∨
      ∃ cursor, cursorAfter key rows after limit = some cursor ∧ cursor < key row := by
  have hmem : row ∈ behind key rows after := mem_behind.2 ⟨hrow, hafter⟩
  have hasc : (behind key rows after).Pairwise fun a b => key a < key b := h.filter _
  rw [← List.take_append_drop limit (behind key rows after)] at hmem hasc
  rcases List.mem_append.1 hmem with hmem | hmem
  · exact Or.inl hmem
  · have hlong : (behind key rows after).length > limit := by
      by_contra hshort
      rw [List.drop_eq_nil_of_le (Nat.le_of_not_lt hshort)] at hmem
      cases hmem
    have hne : pageAfter key rows after limit ≠ [] := by
      unfold pageAfter
      rw [Ne, List.take_eq_nil_iff, not_or]
      exact ⟨Nat.ne_of_gt hlimit, fun hnil => by simp [hnil] at hlong⟩
    refine Or.inr ⟨key ((pageAfter key rows after limit).getLast hne), ?_, ?_⟩
    · unfold cursorAfter
      rw [if_pos hlong, List.getLast?_eq_some_getLast hne]
      rfl
    · exact (List.pairwise_append.1 hasc).2.2 _ (List.getLast_mem hne) row hmem

end Pages

/-! ## Readers -/

/-- Rows that calls change: a row is admitted under the upcoming number and keeps it, and
numbers ascend. -/
structure NumberedRows (Call : Type) where
  State : Type
  Row : Type
  key : Row → Nat
  rows : State → List Row
  upcoming : State → Nat
  change : Call → State → State
  want : Row → Bool
  /-- What a reader gets behind a cursor and up to a page limit, with the next cursor, unless
  its request fails. -/
  page : Nat → Nat → State → Option (List Row × Option Nat)
  Valid : State → Prop
  /-- The numbers can hold what the call admits. -/
  Fits : Call → State → Prop
  valid_change : ∀ call state, Valid state → Fits call state → Valid (change call state)
  ascending : ∀ state, Valid state → (rows state).Pairwise fun a b => key a < key b
  positive : ∀ state, Valid state → ∀ row ∈ rows state, 0 < key row
  below : ∀ state, Valid state → ∀ row ∈ rows state, key row < upcoming state
  kept : ∀ call state, Valid state → ∀ row ∈ rows (change call state),
    key row = upcoming state ∨ ∃ former ∈ rows state, key former = key row
  listed : ∀ after limit state, Valid state → ∀ answer, page after limit state = some answer →
    0 < limit ∧ answer = (pageAfter key ((rows state).filter want) after limit,
      cursorAfter key ((rows state).filter want) after limit)

variable {Call : Type}

/-- A reader between two pages.  Admissions are counted; `born` is when the row that has a
number was admitted, and the cursor is a number with when its row was. -/
structure Reading (S : NumberedRows Call) where
  state : S.State
  admissions : Nat
  born : Nat → Nat
  cursor : Option (Nat × Nat)

inductive ReadingEvent (Call : Type) where
  | call (call : Call)
  | read (limit : Nat)

namespace Reading

variable {S : NumberedRows Call}

/-- A reader that starts over. -/
def start (state : S.State) : Reading S := ⟨state, 0, fun _ => 0, none⟩

/-- Does the call admit a row? -/
def Admits (r : Reading S) (call : Call) : Prop :=
  ∃ row ∈ S.rows (S.change call r.state), S.key row = S.upcoming r.state

/-- The page the reader gets. -/
def page (r : Reading S) (limit : Nat) : Option (List S.Row × Option Nat) :=
  S.page ((r.cursor.map Prod.fst).getD 0) limit r.state

instance (r : Reading S) (call : Call) : Decidable (r.Admits call) :=
  inferInstanceAs (Decidable (∃ row ∈ S.rows (S.change call r.state), _))

def step (r : Reading S) : ReadingEvent Call → Reading S
  | .call call =>
    if r.Admits call then
      { r with
        state := S.change call r.state
        admissions := r.admissions + 1
        born := Function.update r.born (S.upcoming r.state) (r.admissions + 1) }
    else { r with state := S.change call r.state }
  | .read limit =>
    match r.page limit with
    | none => r
    | some (_, cursor) => { r with cursor := cursor.map fun number => (number, r.born number) }

/-- What a call that admits a row leaves. -/
theorem step_admits {r : Reading S} {call : Call} {after : S.State}
    (h : S.change call r.state = after)
    (hadmits : ∃ row ∈ S.rows after, S.key row = S.upcoming r.state) :
    r.step (.call call) = ⟨after, r.admissions + 1,
      Function.update r.born (S.upcoming r.state) (r.admissions + 1), r.cursor⟩ := by
  subst h
  exact if_pos hadmits

theorem step_quiet {r : Reading S} {call : Call} {after : S.State}
    (h : S.change call r.state = after)
    (hquiet : ∀ row ∈ S.rows after, S.key row ≠ S.upcoming r.state) :
    r.step (.call call) = { r with state := after } := by
  subst h
  exact if_neg fun ⟨row, hrow, hkey⟩ => hquiet row hrow hkey

theorem step_read {r : Reading S} {limit : Nat} {rows : List S.Row} {cursor : Option Nat}
    (h : r.page limit = some (rows, cursor)) : r.step (.read limit) =
      { r with cursor := cursor.map fun number => (number, r.born number) } := by
  unfold step
  dsimp only
  rw [h]

def run (r : Reading S) (events : List (ReadingEvent Call)) : Reading S :=
  events.foldl step r

/-- The condition on a step: what is admitted gets a number, and one behind the cursor. -/
def AdmitsBehind (r : Reading S) : ReadingEvent Call → Prop
  | .call call => S.Fits call r.state ∧
      (r.Admits call → ∀ cursor ∈ r.cursor, cursor.1 < S.upcoming r.state)
  | .read _ => True

def RunAdmitsBehind : Reading S → List (ReadingEvent Call) → Prop
  | _, [] => True
  | r, event :: events => r.AdmitsBehind event ∧ (r.step event).RunAdmitsBehind events

/-- A wanted row of this number, admitted then, is there. -/
def Waits (r : Reading S) (number born : Nat) : Prop :=
  r.born number = born ∧ ∃ row ∈ S.rows r.state, S.key row = number ∧ S.want row = true

instance (r : Reading S) (number born : Nat) : Decidable (r.Waits number born) :=
  inferInstanceAs (Decidable (_ ∧ ∃ row ∈ S.rows r.state, _))

/-- As long as the row waits, it is in the next page or in a later one of the same chain, or
the run is over before the chain is. -/
def Served (number born : Nat) : Reading S → List (ReadingEvent Call) → Prop
  | _, [] => True
  | r, .call call :: events => Served number born (r.step (.call call)) events
  | r, .read limit :: events => r.Waits number born →
      match r.page limit with
      | none => Served number born (r.step (.read limit)) events
      | some (rows, cursor) => (∃ row ∈ rows, S.key row = number) ∨
          (cursor.isSome = true ∧ Served number born (r.step (.read limit)) events)

/-- What was admitted behind the cursor's row stands behind the cursor. -/
def Larger (r : Reading S) : Prop :=
  ∀ row ∈ S.rows r.state, ∀ cursor ∈ r.cursor, cursor.2 < r.born (S.key row) →
    cursor.1 < S.key row

/-- At every point of a run, what was admitted behind the cursor's row stands behind the
cursor, and a row that waits there is served by the rest of the run. -/
def LosesNothing (r : Reading S) (events : List (ReadingEvent Call)) : Prop :=
  ∀ before after, events = before ++ after → (r.run before).Larger ∧
    ∀ number born, (r.run before).Waits number born →
      (∀ cursor ∈ (r.run before).cursor, cursor.2 < born) →
      Served number born (r.run before) after

instance [∀ call state, Decidable (S.Fits call state)] (r : Reading S) :
    (event : ReadingEvent Call) → Decidable (r.AdmitsBehind event)
  | .call call => inferInstanceAs (Decidable (S.Fits call r.state ∧
      (r.Admits call → ∀ cursor ∈ r.cursor, cursor.1 < S.upcoming r.state)))
  | .read _ => isTrue trivial

instance decidableRunAdmitsBehind [∀ call state, Decidable (S.Fits call state)] :
    (events : List (ReadingEvent Call)) → (r : Reading S) → Decidable (r.RunAdmitsBehind events)
  | [], _ => isTrue trivial
  | event :: events, r => @instDecidableAnd _ _ _ (decidableRunAdmitsBehind events (r.step event))

/-! ### Along a run -/

/-- The invariant. -/
structure Tracks (r : Reading S) : Prop where
  valid : S.Valid r.state
  inOrder : ∀ a ∈ S.rows r.state, ∀ b ∈ S.rows r.state, S.key a < S.key b →
    r.born (S.key a) < r.born (S.key b)
  counted : ∀ row ∈ S.rows r.state, r.born (S.key row) ≤ r.admissions
  larger : r.Larger

variable {r : Reading S}

theorem tracks_start {state : S.State} (hvalid : S.Valid state) (hempty : S.rows state = []) :
    (start state).Tracks where
  valid := hvalid
  inOrder a ha := by
    rw [start, hempty] at ha
    cases ha
  counted row hrow := by
    rw [start, hempty] at hrow
    cases hrow
  larger row hrow := by
    rw [start, hempty] at hrow
    cases hrow

theorem Tracks.call (h : r.Tracks) {call : Call} (hbehind : r.AdmitsBehind (.call call)) :
    (r.step (.call call)).Tracks := by
  have hvalid := S.valid_change call r.state h.valid hbehind.1
  have hkept := S.kept call r.state h.valid
  have hbelow := S.below r.state h.valid
  unfold step
  dsimp only
  split
  · rename_i hadmits
    -- A row is the new one, born last, or it is a former one with its number.
    have hcase : ∀ row ∈ S.rows (S.change call r.state),
        (S.key row = S.upcoming r.state ∧
          Function.update r.born (S.upcoming r.state) (r.admissions + 1) (S.key row) =
            r.admissions + 1) ∨
        (∃ former ∈ S.rows r.state, S.key former = S.key row) ∧ S.key row < S.upcoming r.state ∧
          Function.update r.born (S.upcoming r.state) (r.admissions + 1) (S.key row) =
            r.born (S.key row) := by
      intro row hrow
      rcases hkept row hrow with hnew | ⟨former, hformer, hkey⟩
      · exact Or.inl ⟨hnew, by rw [hnew, Function.update_self]⟩
      · have hlt := hbelow former hformer
        rw [hkey] at hlt
        exact Or.inr ⟨⟨former, hformer, hkey⟩, hlt, Function.update_of_ne (Nat.ne_of_lt hlt) _ _⟩
    constructor
    case valid => exact hvalid
    case inOrder =>
      intro a ha b hb hlt
      dsimp only at ha hb ⊢
      rcases hcase a ha with ⟨hnew, -⟩ | ⟨⟨a', ha', hkeyA⟩, -, hbornA⟩
      · rcases hcase b hb with ⟨hnew', -⟩ | ⟨-, hltB, -⟩
        · omega
        · omega
      · rw [hbornA]
        have hcounted := h.counted a' ha'
        rw [hkeyA] at hcounted
        rcases hcase b hb with ⟨-, hbornB⟩ | ⟨⟨b', hb', hkeyB⟩, -, hbornB⟩
        · rw [hbornB]
          omega
        · rw [hbornB, ← hkeyA, ← hkeyB]
          rw [← hkeyA, ← hkeyB] at hlt
          exact h.inOrder a' ha' b' hb' hlt
    case counted =>
      intro row hrow
      dsimp only at hrow ⊢
      rcases hcase row hrow with ⟨-, hborn⟩ | ⟨⟨former, hformer, hkey⟩, -, hborn⟩
      · exact Nat.le_of_eq hborn
      · rw [hborn, ← hkey]
        exact Nat.le_succ_of_le (h.counted former hformer)
    case larger =>
      intro row hrow cursor hcursor hborn
      dsimp only at hrow hcursor hborn
      rcases hcase row hrow with ⟨hnew, -⟩ | ⟨⟨former, hformer, hkey⟩, -, hsame⟩
      · rw [hnew]
        exact hbehind.2 hadmits cursor hcursor
      · rw [hsame, ← hkey] at hborn
        rw [← hkey]
        exact h.larger former hformer cursor hcursor hborn
  · rename_i hadmits
    have hformer : ∀ row ∈ S.rows (S.change call r.state),
        ∃ former ∈ S.rows r.state, S.key former = S.key row := by
      intro row hrow
      rcases hkept row hrow with hnew | hformer
      · exact absurd ⟨row, hrow, hnew⟩ hadmits
      · exact hformer
    constructor
    case valid => exact hvalid
    case inOrder =>
      intro a ha b hb hlt
      obtain ⟨a', ha', hkeyA⟩ := hformer a ha
      obtain ⟨b', hb', hkeyB⟩ := hformer b hb
      rw [← hkeyA, ← hkeyB] at hlt ⊢
      exact h.inOrder a' ha' b' hb' hlt
    case counted =>
      intro row hrow
      obtain ⟨former, hmem, hkey⟩ := hformer row hrow
      rw [← hkey]
      exact h.counted former hmem
    case larger =>
      intro row hrow cursor hcursor hborn
      obtain ⟨former, hmem, hkey⟩ := hformer row hrow
      rw [← hkey] at hborn ⊢
      exact h.larger former hmem cursor hcursor hborn

/-- A page the reader got. -/
theorem Tracks.page_eq (h : r.Tracks) {limit : Nat} {rows : List S.Row} {cursor : Option Nat}
    (hpage : r.page limit = some (rows, cursor)) :
    0 < limit ∧ rows = pageAfter S.key ((S.rows r.state).filter S.want)
        ((r.cursor.map Prod.fst).getD 0) limit ∧
      cursor = cursorAfter S.key ((S.rows r.state).filter S.want)
        ((r.cursor.map Prod.fst).getD 0) limit := by
  obtain ⟨hlimit, hanswer⟩ := S.listed _ _ _ h.valid _ hpage
  exact ⟨hlimit, (Prod.mk.inj hanswer).1, (Prod.mk.inj hanswer).2⟩

theorem Tracks.read (h : r.Tracks) (limit : Nat) : (r.step (.read limit)).Tracks := by
  unfold step
  dsimp only
  split
  · exact h
  · rename_i rows cursor hpage
    obtain ⟨-, -, hcursor⟩ := h.page_eq hpage
    constructor
    case valid => exact h.valid
    case inOrder => exact h.inOrder
    case counted => exact h.counted
    case larger =>
      intro row hrow last hlast hborn
      obtain ⟨number, hnumber, rfl⟩ := Option.map_eq_some_iff.1 (Option.mem_def.1 hlast)
      obtain ⟨lastRow, hmem, rfl, -⟩ := exists_of_cursorAfter (hcursor.symm.trans hnumber)
      have hin := (List.mem_filter.1 hmem).1
      dsimp only at hborn ⊢
      by_contra hle
      rcases Nat.lt_or_eq_of_le (Nat.le_of_not_lt hle) with hlt | heq
      · have hearlier := h.inOrder row hrow lastRow hin hlt
        omega
      · rw [heq] at hborn
        exact Nat.lt_irrefl _ hborn

theorem Tracks.step (h : r.Tracks) {event : ReadingEvent Call} (hbehind : r.AdmitsBehind event) :
    (r.step event).Tracks := by
  cases event with
  | call call => exact h.call hbehind
  | read limit => exact h.read limit

theorem Tracks.run (h : r.Tracks) {events : List (ReadingEvent Call)}
    (hbehind : r.RunAdmitsBehind events) : (r.run events).Tracks := by
  induction events generalizing r with
  | nil => exact h
  | cons event events ih => exact ih (h.step hbehind.1) hbehind.2

/-- A row behind the cursor is served. -/
theorem Tracks.served {number born : Nat} (h : r.Tracks)
    (hcursor : ∀ cursor ∈ r.cursor, cursor.1 < number) (events : List (ReadingEvent Call))
    (hbehind : r.RunAdmitsBehind events) : Served number born r events := by
  induction events generalizing r with
  | nil => trivial
  | cons event events ih =>
    have hnext := h.step hbehind.1
    cases event with
    | call call =>
      refine ih hnext ?_ hbehind.2
      unfold Reading.step
      dsimp only
      split
      · exact hcursor
      · exact hcursor
    | read limit =>
      rintro ⟨hborn, row, hrow, rfl, hwant⟩
      cases hpage : r.page limit with
      | none =>
        dsimp only
        refine ih hnext ?_ hbehind.2
        unfold Reading.step
        dsimp only
        rw [hpage]
        exact hcursor
      | some answer =>
        obtain ⟨rows, cursor⟩ := answer
        obtain ⟨hlimit, hrows, hnextCursor⟩ := h.page_eq hpage
        have hafter : (r.cursor.map Prod.fst).getD 0 < S.key row := by
          cases hc : r.cursor with
          | none => exact S.positive _ h.valid row hrow
          | some cursor => exact hcursor cursor hc
        have hasc := (S.ascending _ h.valid).filter fun row => S.want row
        dsimp only
        rcases mem_pageAfter_or_cursorAfter hasc hlimit
            (List.mem_filter.2 ⟨hrow, hwant⟩) hafter with hin | ⟨next, hnextEq, hlt⟩
        · exact Or.inl ⟨row, hrows ▸ hin, rfl⟩
        · rw [← hnextCursor] at hnextEq
          refine Or.inr ⟨by rw [hnextEq]; rfl, ih hnext ?_ hbehind.2⟩
          unfold Reading.step
          dsimp only
          rw [hpage, hnextEq]
          intro last hlast
          obtain rfl := Option.some.inj (Option.mem_def.1 hlast)
          exact hlt

theorem runAdmitsBehind_append {before after : List (ReadingEvent Call)} :
    r.RunAdmitsBehind (before ++ after) ↔
      r.RunAdmitsBehind before ∧ (r.run before).RunAdmitsBehind after := by
  induction before generalizing r with
  | nil => exact ⟨fun h => ⟨trivial, h⟩, fun h => h.2⟩
  | cons event before ih => exact Iff.trans (and_congr_right fun _ => ih) and_assoc.symm

/-- A reader loses nothing when what is admitted gets a number behind its cursor. -/
theorem Tracks.losesNothing (h : r.Tracks) {events : List (ReadingEvent Call)}
    (hbehind : r.RunAdmitsBehind events) : r.LosesNothing events := by
  rintro before after rfl
  obtain ⟨hbefore, hafter⟩ := runAdmitsBehind_append.1 hbehind
  have hreached := h.run hbefore
  refine ⟨hreached.larger, fun number born hwaits hborn => ?_⟩
  refine hreached.served (fun cursor hcursor => ?_) after hafter
  obtain ⟨rfl, row, hrow, rfl, -⟩ := hwaits
  exact hreached.larger row hrow cursor hcursor (hborn cursor hcursor)

/-- Where upcoming numbers only grow, what is admitted stands behind every cursor. -/
theorem Tracks.runAdmitsBehind
    (hfits : ∀ call state, S.Fits call state)
    (hgrows : ∀ call state, S.Valid state → S.upcoming state ≤ S.upcoming (S.change call state))
    (h : r.Tracks) (hcursor : ∀ cursor ∈ r.cursor, cursor.1 < S.upcoming r.state)
    (events : List (ReadingEvent Call)) : r.RunAdmitsBehind events := by
  induction events generalizing r with
  | nil => trivial
  | cons event events ih =>
    have hbehind : r.AdmitsBehind event := by
      cases event with
      | call call => exact ⟨hfits call r.state, fun _ => hcursor⟩
      | read limit => trivial
    refine ⟨hbehind, ih (h.step hbehind) ?_⟩
    cases event with
    | call call =>
      have hgrown := hgrows call r.state h.valid
      unfold Reading.step
      dsimp only
      split
      · exact fun cursor hmem => Nat.lt_of_lt_of_le (hcursor cursor hmem) hgrown
      · exact fun cursor hmem => Nat.lt_of_lt_of_le (hcursor cursor hmem) hgrown
    | read limit =>
      unfold Reading.step
      dsimp only
      split
      · exact hcursor
      · rename_i rows cursor hpage
        obtain ⟨-, -, hnext⟩ := h.page_eq hpage
        intro last hlast
        obtain ⟨number, hnumber, rfl⟩ := Option.map_eq_some_iff.1 (Option.mem_def.1 hlast)
        obtain ⟨row, hmem, rfl, -⟩ := exists_of_cursorAfter (hnext.symm.trans hnumber)
        exact S.below _ h.valid row (List.mem_filter.1 hmem).1

end Reading

end OpenGameAgent
