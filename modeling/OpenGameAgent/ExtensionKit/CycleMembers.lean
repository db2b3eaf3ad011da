import Mathlib.Algebra.Order.BigOperators.Group.List
import OpenGameAgent.ExtensionKit.DependencyDiagnostics
import OpenGameAgent.Library.LeastPaths

/-!
# What the depth-first pass collects

The pass comes to every extension along its least path, so what it collects can be said without
the pass: the extensions that lie between the two ends of a dependency that leads back into the
least path of its dependent (`mem_findCycleMembers`).

The invariant `Searching` rests on one thing: a simple path to an extension that has not been seen
leaves the current path by a dependency that has not been looked at (`Departs`).
-/

namespace OpenGameAgent.ExtensionKit

open LeastPaths

/-- A dependency inside the set. -/
def Needs (byId : Manifests) (u w : Text) : Prop := w ∈ presentDependencies byId u

/-- The graph that the pass walks: its vertices in order, the dependencies of each in order. -/
structure Graph (byId : Manifests) (ids : List Text) : Prop where
  sorted : ids.Pairwise (· < ·)
  dependencies : ∀ u, (presentDependencies byId u).Pairwise (· < ·)
  ends : ∀ u w, Needs byId u w → u ∈ ids ∧ w ∈ ids

/-- The ids of the frames, from the root. -/
def framesPath (stack : List Frame) : List Text := (stack.map (·.id)).reverse

/-- The path goes along the frames and leaves them by a dependency not looked at yet. -/
def Departs (roots : List Text) : List Frame → List Text → Prop
  | [], path => ∃ x rest, path = x :: rest ∧ x ∉ roots
  | current :: below, path =>
    (∃ x rest, path = framesPath (current :: below) ++ x :: rest ∧
      x ∉ current.dependencies.take current.index) ∨ Departs roots below path

/-- Each frame was entered by the dependency its parent looked at last, and the root comes before
the vertices that are not among the roots. -/
def Linked (ids roots : List Text) : List Frame → Prop
  | [] => True
  | [root] => ∀ x ∈ ids, x ∉ roots → root.id < x
  | current :: parent :: below =>
    (∃ looked, parent.index = looked + 1 ∧ parent.dependencies[looked]? = some current.id) ∧
      Linked ids roots (parent :: below)

/-- The pass has looked at a dependency. -/
def Looked (byId : Manifests) (search : Search) (u w : Text) : Prop :=
  (search.state u = .finished ∧ Needs byId u w) ∨
    ∃ current ∈ search.stack, current.id = u ∧ w ∈ current.dependencies.take current.index

/-- What holds between any two rounds, `roots` being the roots begun so far. -/
structure Searching (byId : Manifests) (ids roots : List Text) (search : Search) : Prop where
  path : search.path = framesPath search.stack
  frames : ∀ current ∈ search.stack, current.dependencies = presentDependencies byId current.id
  linked : Linked ids roots search.stack
  onPath : ∀ x, search.state x = .onPath ↔ x ∈ search.path
  index : ∀ i x, search.path[i]? = some x → search.pathIndex x = some i
  nodup : search.path.Nodup
  closed : ∀ u w, search.state u = .finished → Needs byId u w → search.state w ≠ .unseen
  looked : ∀ current ∈ search.stack, ∀ w ∈ current.dependencies.take current.index,
    search.state w ≠ .unseen
  departs : ∀ q v, SimplePath (Needs byId) q v → v ∈ ids → search.state v = .unseen →
    Departs roots search.stack q
  least : ∀ i x, search.path[i]? = some x → LeastPath (Needs byId) (search.path.take (i + 1)) x
  finished : ∀ u, search.state u = .finished → ∃ q, LeastPath (Needs byId) q u
  roots : ∀ r ∈ roots, search.state r ≠ .unseen
  marked : ∀ x, x ∈ search.cycleMembers ↔ ∃ q u w start, LeastPath (Needs byId) q u ∧
    Looked byId search u w ∧ q[start]? = some w ∧ x ∈ q.drop start

section Words

variable {byId : Manifests} {ids roots : List Text} {stack : List Frame} {current : Frame}

@[simp] theorem framesPath_cons (current : Frame) (stack : List Frame) :
    framesPath (current :: stack) = framesPath stack ++ [current.id] := by
  simp [framesPath]

@[simp] theorem framesPath_nil : framesPath [] = [] := rfl

theorem append_lt_append (p : List Text) {a b : Text} (h : a < b) (r s : List Text) :
    p ++ a :: r < p ++ b :: s := by
  induction p with
  | nil => exact List.cons_lt_cons_iff.mpr (.inl h)
  | cons c p ih => exact List.cons_lt_cons_iff.mpr (.inr ⟨rfl, ih⟩)

theorem lt_of_mem_take_of_not_mem {l : List Text} (h : l.Pairwise (· < ·)) {n : ℕ} {a b : Text}
    (ha : a ∈ l.take n) (hb : b ∈ l) (hnot : b ∉ l.take n) : a < b := by
  have hdrop : b ∈ l.drop n := by
    rw [← List.take_append_drop n l, List.mem_append] at hb
    exact hb.resolve_left hnot
  rw [← List.take_append_drop n l, List.pairwise_append] at h
  exact h.2.2 a ha b hdrop

/-- The next vertex of a path that goes along the frames is a dependency of the top one. -/
theorem needs_of_chain {rest : List Text} {x : Text}
    (hchain : (framesPath (current :: stack) ++ x :: rest).IsChain (Needs byId)) :
    Needs byId current.id x := by
  rw [framesPath_cons, List.append_assoc] at hchain
  have := hchain.right_of_append
  simp only [List.singleton_append, List.isChain_cons_cons] at this
  exact this.1

/-- A path that leaves the frames below the top one comes after every path through the top. -/
theorem lt_of_departs (graph : Graph byId ids) :
    ∀ (stack : List Frame) (current : Frame),
      (∀ f ∈ current :: stack, f.dependencies = presentDependencies byId f.id) →
      Linked ids roots (current :: stack) → ∀ {q : List Text} {v : Text},
      SimplePath (Needs byId) q v → v ∈ ids → Departs roots stack q →
      ∀ t, framesPath (current :: stack) ++ t < q := by
  intro stack
  induction stack with
  | nil =>
    intro current _ hlinked q v hq hv hdeparts t
    obtain ⟨x, rest, rfl, hx⟩ := hdeparts
    have hids : x ∈ ids := by
      cases rest with
      | nil =>
        have hlast := hq.last
        simp only [List.getLast?_singleton, Option.some.injEq] at hlast
        exact hlast ▸ hv
      | cons y rest => exact (graph.ends x y (List.isChain_cons_cons.mp hq.chain).1).1
    exact append_lt_append [] (hlinked x hids hx) t rest
  | cons parent below ih =>
    intro current hframes hlinked q v hq hv hdeparts t
    obtain ⟨⟨looked, hindex, hget⟩, hrest⟩ := hlinked
    have hparent : ∀ f ∈ parent :: below, f.dependencies = presentDependencies byId f.id :=
      fun f hf => hframes f (List.mem_cons_of_mem _ hf)
    rcases hdeparts with ⟨x, rest, rfl, hx⟩ | hbelow
    · have hneeds := needs_of_chain hq.chain
      have hdeps := hparent parent List.mem_cons_self
      have hlt : current.id < x := by
        refine lt_of_mem_take_of_not_mem (graph.dependencies parent.id) (n := parent.index) ?_
          hneeds (hdeps ▸ hx)
        rw [← hdeps, hindex]
        obtain ⟨hlen, hval⟩ := List.getElem?_eq_some_iff.mp hget
        exact List.mem_take_iff_getElem.mpr ⟨looked, by omega, hval⟩
      rw [framesPath_cons current, List.append_assoc]
      exact append_lt_append _ hlt t rest
    · have hlt := ih parent hparent hrest hq hv hbelow (current.id :: t)
      rw [framesPath_cons current, List.append_assoc]
      exact hlt

end Words

/-! ## One round -/

section Rounds

variable {byId : Manifests} {ids roots : List Text} {search : Search} {current : Frame}
  {below : List Frame}

theorem Searching.current_onPath (h : Searching byId ids roots search)
    (hstack : search.stack = current :: below) : search.path.getLast? = some current.id := by
  rw [h.path, hstack, framesPath_cons]
  simp

/-- The path so far is the least path of its last extension. -/
theorem Searching.path_least (h : Searching byId ids roots search) {u : Text}
    (hlast : search.path.getLast? = some u) : LeastPath (Needs byId) search.path u := by
  have hpos : 0 < search.path.length := by
    rw [List.length_pos_iff]
    rintro hnil
    simp [hnil] at hlast
  have hleast := h.least (search.path.length - 1) u (by rwa [← List.getLast?_eq_getElem?])
  rwa [List.take_of_length_le (by omega)] at hleast

theorem Searching.current_least (h : Searching byId ids roots search)
    (hstack : search.stack = current :: below) :
    LeastPath (Needs byId) search.path current.id :=
  h.path_least (h.current_onPath hstack)

/-- From a finished extension no path that avoids the current one leads to an unseen one. -/
theorem Searching.finished_of_chain (h : Searching byId ids roots search) :
    ∀ {rest : List Text} {x : Text}, (x :: rest).IsChain (Needs byId) →
      search.state x = .finished → (∀ y ∈ x :: rest, y ∉ search.path) →
      ∀ y ∈ x :: rest, search.state y = .finished := by
  intro rest
  induction rest with
  | nil =>
    intro x _ hx _ y hy
    rw [List.mem_singleton.mp hy]
    exact hx
  | cons z rest ih =>
    intro x hchain hx havoid y hy
    rw [List.isChain_cons_cons] at hchain
    have hz : search.state z = .finished := by
      have hseen := h.closed x z hx hchain.1
      have hoff : search.state z ≠ .onPath := fun hon =>
        havoid z (by simp) ((h.onPath z).mp hon)
      cases hcase : search.state z with
      | unseen => exact absurd hcase hseen
      | onPath => exact absurd hcase hoff
      | finished => rfl
    rcases List.mem_cons.mp hy with rfl | hy
    · exact hx
    · exact ih hchain.2 hz (fun w hw => havoid w (List.mem_cons_of_mem _ hw)) y hy

/-- A path that goes on from the whole current path avoids it. -/
theorem avoids_of_nodup {p r : List Text} (h : (p ++ r).Nodup) : ∀ y ∈ r, y ∉ p := by
  intro y hy hp
  exact (List.nodup_append.mp h).2.2 y hp y hy rfl

/-- The frames below the top one keep what they have looked at. -/
theorem looked_tail {advanced : Frame} (hid : advanced.id = current.id) {w d : Text} {u : Text}
    (htake : ∀ x, x ∈ advanced.dependencies.take advanced.index ↔
      x ∈ current.dependencies.take current.index ∨ x = d) :
    (∃ f ∈ advanced :: below, f.id = u ∧ w ∈ f.dependencies.take f.index) ↔
      (∃ f ∈ current :: below, f.id = u ∧ w ∈ f.dependencies.take f.index) ∨
        (u = current.id ∧ w = d) := by
  simp only [List.mem_cons, exists_eq_or_imp, htake, hid]
  constructor
  · rintro (⟨rfl, hw | hw⟩ | hrest)
    · exact .inl (.inl ⟨rfl, hw⟩)
    · exact .inr ⟨rfl, hw⟩
    · exact .inl (.inr hrest)
  · rintro ((⟨rfl, hw⟩ | hrest) | ⟨rfl, rfl⟩)
    · exact .inl ⟨rfl, .inl hw⟩
    · exact .inr hrest
    · exact .inl ⟨rfl, .inr rfl⟩

theorem mem_take_succ {l : List Text} {n : ℕ} {d : Text} (h : l[n]? = some d) (x : Text) :
    x ∈ l.take (n + 1) ↔ x ∈ l.take n ∨ x = d := by
  obtain ⟨hlt, hget⟩ := List.getElem?_eq_some_iff.mp h
  rw [List.take_succ_eq_append_getElem hlt, hget, List.mem_append, List.mem_singleton]

/-- Linking looks at the id of the top frame only. -/
theorem linked_advance {advanced : Frame} (hid : advanced.id = current.id)
    (h : Linked ids roots (current :: below)) : Linked ids roots (advanced :: below) := by
  cases below with
  | nil =>
    intro x hx hnot
    rw [hid]
    exact h x hx hnot
  | cons parent below =>
    obtain ⟨⟨looked, hindex, hget⟩, hrest⟩ := h
    exact ⟨⟨looked, hindex, by rw [hid]; exact hget⟩, hrest⟩

/-- The top extension is finished. -/
theorem Searching.finish (h : Searching byId ids roots search)
    (hstack : search.stack = current :: below)
    (hend : current.dependencies[current.index]? = none) :
    Searching byId ids roots
      { search with
        state := Function.update search.state current.id .finished
        stack := below
        pathIndex := Function.update search.pathIndex current.id none
        path := search.path.dropLast } := by
  have hpath : search.path = framesPath below ++ [current.id] := by
    rw [h.path, hstack, framesPath_cons]
  have hdrop : search.path.dropLast = framesPath below := by rw [hpath, List.dropLast_concat]
  have hdeps := h.frames current (by rw [hstack]; exact List.mem_cons_self)
  have hall : current.dependencies.take current.index = presentDependencies byId current.id := by
    rw [List.take_of_length_le (List.getElem?_eq_none_iff.mp hend), hdeps]
  have hnodup := h.nodup
  rw [hpath] at hnodup
  have hfresh : current.id ∉ framesPath below := by
    intro hmem
    exact (List.nodup_append.mp hnodup).2.2 _ hmem _ List.mem_cons_self rfl
  have hon : search.state current.id = .onPath := (h.onPath _).mpr (by rw [hpath]; simp)
  have hunseen : ∀ x, Function.update search.state current.id .finished x ≠ .unseen ↔
      search.state x ≠ .unseen := by
    intro x
    by_cases hx : x = current.id
    · subst hx
      simp [hon]
    · simp [Function.update_of_ne hx]
  have hfinished : ∀ x, Function.update search.state current.id .finished x = .finished ↔
      search.state x = .finished ∨ x = current.id := by
    intro x
    by_cases hx : x = current.id
    · subst hx
      simp
    · simp [hx]
  have hbelow : ∀ f ∈ below, f ∈ search.stack := by
    intro f hf
    rw [hstack]
    exact List.mem_cons_of_mem _ hf
  constructor
  · exact hdrop
  · exact fun f hf => h.frames f (hbelow f hf)
  · have hlinked := h.linked
    rw [hstack] at hlinked
    cases below with
    | nil => trivial
    | cons parent below => exact hlinked.2
  · intro x
    show Function.update search.state current.id .finished x = .onPath ↔ x ∈ search.path.dropLast
    rw [hdrop]
    by_cases hx : x = current.id
    · subst hx
      simp [hfresh]
    · rw [Function.update_of_ne hx, h.onPath, hpath]
      simp [hx]
  · intro i x hget
    show Function.update search.pathIndex current.id none x = some i
    change search.path.dropLast[i]? = some x at hget
    rw [hdrop] at hget
    have hx : x ≠ current.id := by
      rintro rfl
      exact hfresh (List.mem_of_getElem? hget)
    rw [Function.update_of_ne hx]
    refine h.index i x ?_
    rw [hpath, List.getElem?_append_left (List.getElem?_eq_some_iff.mp hget).1]
    exact hget
  · rw [show Search.path _ = search.path.dropLast from rfl, hdrop]
    exact hnodup.of_append_left
  · intro u w hu hneeds
    rw [hunseen]
    rcases (hfinished u).mp hu with hu | rfl
    · exact h.closed u w hu hneeds
    · exact h.looked current (by rw [hstack]; exact List.mem_cons_self) w (by rw [hall]; exact hneeds)
  · intro f hf w hw
    rw [hunseen]
    exact h.looked f (hbelow f hf) w hw
  · intro q v hq hv hstate
    have hold : search.state v = .unseen := by
      by_contra hne
      exact (hunseen v).mpr hne hstate
    have hdeparts := h.departs q v hq hv hold
    rw [hstack] at hdeparts
    rcases hdeparts with ⟨x, rest, rfl, hx⟩ | hrest
    · rw [hall] at hx
      exact absurd (needs_of_chain hq.chain) hx
    · exact hrest
  · intro i x hget
    change search.path.dropLast[i]? = some x at hget
    show LeastPath (Needs byId) (search.path.dropLast.take (i + 1)) x
    rw [hdrop] at hget ⊢
    obtain ⟨hlt, -⟩ := List.getElem?_eq_some_iff.mp hget
    have hget' : search.path[i]? = some x := by
      rw [hpath, List.getElem?_append_left hlt]
      exact hget
    have hleast := h.least i x hget'
    rw [hpath, List.take_append_of_le_length (by omega)] at hleast
    exact hleast
  · intro u hu
    rcases (hfinished u).mp hu with hu | rfl
    · exact h.finished u hu
    · exact ⟨_, h.current_least hstack⟩
  · intro r hr
    rw [hunseen]
    exact h.roots r hr
  · intro x
    refine (h.marked x).trans ?_
    have hlooked : ∀ u w, Looked byId search u w ↔
        (Function.update search.state current.id .finished u = .finished ∧ Needs byId u w) ∨
          ∃ f ∈ below, f.id = u ∧ w ∈ f.dependencies.take f.index := by
      intro u w
      rw [Looked, hstack, hfinished]
      simp only [List.mem_cons, exists_eq_or_imp, hall]
      constructor
      · rintro (⟨hu, hw⟩ | ⟨rfl, hw⟩ | hrest)
        · exact .inl ⟨.inl hu, hw⟩
        · exact .inl ⟨.inr rfl, hw⟩
        · exact .inr hrest
      · rintro (⟨hu | rfl, hw⟩ | hrest)
        · exact .inl ⟨hu, hw⟩
        · exact .inr (.inl ⟨rfl, hw⟩)
        · exact .inr (.inr hrest)
    simp only [hlooked]
    rfl

/-- The frame with one more dependency looked at. -/
def Frame.advance (current : Frame) : Frame := { current with index := current.index + 1 }

/-- A path that leaves the frames still leaves them when the top frame has looked at another
dependency, unless it goes on with that one. -/
theorem departs_advance {d : Text} (hget : current.dependencies[current.index]? = some d)
    {q : List Text} (h : Departs roots (current :: below) q) :
    Departs roots (current.advance :: below) q ∨
      ∃ rest, q = framesPath (current :: below) ++ d :: rest := by
  rcases h with ⟨x, rest, hq, hx⟩ | hrest
  · by_cases hxd : x = d
    · exact .inr ⟨rest, hxd ▸ hq⟩
    · refine .inl (.inl ⟨x, rest, ?_, ?_⟩)
      · simpa [Frame.advance] using hq
      · show x ∉ current.dependencies.take (current.index + 1)
        rw [mem_take_succ hget, not_or]
        exact ⟨hx, hxd⟩
  · exact .inl (.inr hrest)

/-- The dependency the top frame looks at has been seen: it is on the path, which it closes, or it
is finished. -/
theorem Searching.pass (h : Searching byId ids roots search)
    (hstack : search.stack = current :: below) {d : Text}
    (hget : current.dependencies[current.index]? = some d) (hseen : search.state d ≠ .unseen)
    {members : List Text} (hmembers : ∀ x, x ∈ members ↔ x ∈ search.cycleMembers ∨
      ∃ start, search.path[start]? = some d ∧ x ∈ search.path.drop start) :
    Searching byId ids roots
      { search with cycleMembers := members, stack := current.advance :: below } := by
  have hpath : framesPath (current.advance :: below) = framesPath (current :: below) := rfl
  have hdeps := h.frames current (by rw [hstack]; exact List.mem_cons_self)
  have hframes : ∀ f ∈ below, f ∈ search.stack := by
    intro f hf
    rw [hstack]
    exact List.mem_cons_of_mem _ hf
  have hlinked := h.linked
  rw [hstack] at hlinked
  constructor
  · show search.path = framesPath (current.advance :: below)
    rw [hpath, ← hstack]
    exact h.path
  · intro f hf
    rcases List.mem_cons.mp hf with rfl | hf
    · exact hdeps
    · exact h.frames f (hframes f hf)
  · exact linked_advance (show current.advance.id = current.id from rfl) hlinked
  · exact h.onPath
  · exact h.index
  · exact h.nodup
  · exact h.closed
  · intro f hf w hw
    rcases List.mem_cons.mp hf with rfl | hf
    · rcases (mem_take_succ hget w).mp hw with hw | rfl
      · exact h.looked current (by rw [hstack]; exact List.mem_cons_self) w hw
      · exact hseen
    · exact h.looked f (hframes f hf) w hw
  · intro q v hq hv hstate
    have hdeparts := h.departs q v hq hv hstate
    rw [hstack] at hdeparts
    rcases departs_advance hget hdeparts with hnext | ⟨rest, rfl⟩
    · exact hnext
    · -- the path would go on with a dependency that has been seen, and never get to `v`
      rw [← hstack, ← h.path] at hq
      have havoid := avoids_of_nodup hq.nodup
      have hoff : search.state d ≠ .onPath := fun hon =>
        havoid d List.mem_cons_self ((h.onPath d).mp hon)
      have hdone : search.state d = .finished := by
        cases hcase : search.state d with
        | unseen => exact absurd hcase hseen
        | onPath => exact absurd hcase hoff
        | finished => rfl
      have hv' : v ∈ d :: rest := by
        refine List.mem_of_getLast? ?_
        have hlast := hq.last
        simpa [List.getLast?_append] using hlast
      have := h.finished_of_chain hq.chain.right_of_append hdone havoid v hv'
      rw [hstate] at this
      cases this
  · exact h.least
  · exact h.finished
  · exact h.roots
  · intro x
    show x ∈ members ↔ _
    rw [hmembers, h.marked]
    have hlooked : ∀ u w, Looked byId
        { search with cycleMembers := members, stack := current.advance :: below } u w ↔
          Looked byId search u w ∨ (u = current.id ∧ w = d) := by
      intro u w
      have htail := @looked_tail current below current.advance rfl w d u (mem_take_succ hget)
      rw [Looked, Looked, hstack, htail]
      exact or_assoc.symm
    simp only [hlooked]
    constructor
    · rintro (⟨q, u, w, start, hq, hl, hw, hx⟩ | ⟨start, hw, hx⟩)
      · exact ⟨q, u, w, start, hq, .inl hl, hw, hx⟩
      · exact ⟨search.path, current.id, d, start, h.current_least hstack, .inr ⟨rfl, rfl⟩, hw, hx⟩
    · rintro ⟨q, u, w, start, hq, hl | ⟨rfl, rfl⟩, hw, hx⟩
      · exact .inl ⟨q, u, w, start, hq, hl, hw, hx⟩
      · rw [hq.unique (h.current_least hstack)] at hw hx
        exact .inr ⟨start, hw, hx⟩

/-- The least path to an unseen dependency goes on from the current path. -/
theorem Searching.least_descend (graph : Graph byId ids) (h : Searching byId ids roots search)
    (hstack : search.stack = current :: below) {d : Text}
    (hget : current.dependencies[current.index]? = some d) (hunseen : search.state d = .unseen) :
    LeastPath (Needs byId) (search.path ++ [d]) d := by
  have hdeps := h.frames current (by rw [hstack]; exact List.mem_cons_self)
  obtain ⟨hlt, hval⟩ := List.getElem?_eq_some_iff.mp hget
  have hneeds : Needs byId current.id d := by
    show d ∈ presentDependencies byId current.id
    rw [← hdeps, ← hval]
    exact List.getElem_mem hlt
  have hoff : d ∉ search.path := by
    intro hmem
    rw [← h.onPath, hunseen] at hmem
    cases hmem
  refine ⟨(h.current_least hstack).toSimplePath.snoc hneeds hoff, ?_⟩
  intro q hq
  have hids := (graph.ends _ _ hneeds).2
  have hdeparts := h.departs q d hq hids hunseen
  have hpath : search.path = framesPath (current :: below) := by rw [h.path, hstack]
  rw [hstack] at hdeparts
  rcases hdeparts with ⟨x, rest, rfl, hx⟩ | hrest
  · rw [hpath]
    by_cases hxd : x = d
    · rw [hxd, show d :: rest = [d] ++ rest from rfl, ← List.append_assoc]
      exact le_of_prefix (List.prefix_append _ _)
    · refine (append_lt_append _ ?_ [] rest).le
      have hsorted : current.dependencies.Pairwise (· < ·) := hdeps ▸ graph.dependencies _
      refine lt_of_mem_take_of_not_mem hsorted (n := current.index + 1) ?_
        (hdeps ▸ needs_of_chain hq.chain) ?_
      · exact (mem_take_succ hget d).mpr (.inr rfl)
      · rw [mem_take_succ hget, not_or]
        exact ⟨hx, hxd⟩
  · have hlinked := h.linked
    rw [hstack] at hlinked
    rw [hpath]
    refine (lt_of_departs graph below current ?_ hlinked hq hids hrest [d]).le
    rw [← hstack]
    exact h.frames

/-- What `enter` needs to know: the extension is unseen and the path with it is its least path. -/
theorem Searching.entered {stack : List Frame} {d : Text} {next : List Text}
    (h : Searching byId ids roots search) (hunseen : search.state d = .unseen)
    (hids : d ∈ ids)
    (hpath : search.path = framesPath stack)
    (hframes : ∀ f ∈ stack, f.dependencies = presentDependencies byId f.id)
    (hlinked : Linked ids next (frame byId d :: stack))
    (hlooked : ∀ f ∈ stack, ∀ w ∈ f.dependencies.take f.index, search.state w ≠ .unseen ∨ w = d)
    (hdeparts : ∀ q v, SimplePath (Needs byId) q v → v ∈ ids → search.state v = .unseen →
      v ≠ d → Departs next (frame byId d :: stack) q)
    (hleast : LeastPath (Needs byId) (search.path ++ [d]) d)
    (hroots : ∀ r ∈ next, search.state r ≠ .unseen ∨ r = d)
    (hmarked : ∀ u w, (∃ f ∈ stack, f.id = u ∧ w ∈ f.dependencies.take f.index) ↔
      (∃ f ∈ search.stack, f.id = u ∧ w ∈ f.dependencies.take f.index) ∨
        (search.path.getLast? = some u ∧ w = d)) :
    Searching byId ids next (enter byId { search with stack := stack } d) := by
  have hoff : d ∉ search.path := by
    intro hmem
    rw [← h.onPath, hunseen] at hmem
    cases hmem
  have hseen : ∀ x, Function.update search.state d .onPath x ≠ .unseen ↔
      search.state x ≠ .unseen ∨ x = d := by
    intro x
    by_cases hx : x = d
    · subst hx
      simp
    · simp [hx]
  have hfinished : ∀ x, Function.update search.state d .onPath x = .finished ↔
      search.state x = .finished := by
    intro x
    by_cases hx : x = d
    · subst hx
      simp [hunseen]
    · simp [hx]
  constructor
  · show search.path ++ [d] = framesPath (frame byId d :: stack)
    rw [framesPath_cons, hpath]
    rfl
  · intro f hf
    rcases List.mem_cons.mp hf with rfl | hf
    · rfl
    · exact hframes f hf
  · exact hlinked
  · intro x
    show Function.update search.state d .onPath x = .onPath ↔ x ∈ search.path ++ [d]
    by_cases hx : x = d
    · subst hx
      simp
    · simp [hx, h.onPath]
  · intro i x hget
    show Function.update search.pathIndex d (some search.path.length) x = some i
    change (search.path ++ [d])[i]? = some x at hget
    by_cases hi : i < search.path.length
    · rw [List.getElem?_append_left hi] at hget
      have hx : x ≠ d := by
        rintro rfl
        exact hoff (List.mem_of_getElem? hget)
      rw [Function.update_of_ne hx]
      exact h.index i x hget
    · rw [List.getElem?_append_right (not_lt.mp hi), List.getElem?_singleton] at hget
      split at hget
      · rename_i heq
        obtain rfl := Option.some.inj hget
        rw [Function.update_self, show i = search.path.length by omega]
      · cases hget
  · exact hleast.nodup
  · intro u w hu hneeds
    exact (hseen w).mpr (.inl (h.closed u w ((hfinished u).mp hu) hneeds))
  · intro f hf w hw
    rcases List.mem_cons.mp hf with rfl | hf
    · simp [frame] at hw
    · exact (hseen w).mpr (hlooked f hf w hw)
  · intro q v hq hv hstate
    by_cases hne : v = d
    · exact absurd hstate ((hseen v).mpr (.inr hne))
    · refine hdeparts q v hq hv ?_ hne
      by_contra hold
      exact (hseen v).mpr (.inl hold) hstate
  · intro i x hget
    change (search.path ++ [d])[i]? = some x at hget
    show LeastPath (Needs byId) ((search.path ++ [d]).take (i + 1)) x
    by_cases hi : i < search.path.length
    · rw [List.getElem?_append_left hi] at hget
      rw [List.take_append_of_le_length (by omega)]
      exact h.least i x hget
    · rw [List.getElem?_append_right (not_lt.mp hi), List.getElem?_singleton] at hget
      split at hget
      · obtain rfl := Option.some.inj hget
        rwa [List.take_of_length_le (by simp; omega)]
      · cases hget
  · intro u hu
    exact h.finished u ((hfinished u).mp hu)
  · intro r hr
    exact (hseen r).mpr (hroots r hr)
  · intro x
    refine (h.marked x).trans ?_
    have hlooks : ∀ u w, Looked byId (enter byId { search with stack := stack } d) u w ↔
        Looked byId search u w ∨ (search.path.getLast? = some u ∧ w = d) := by
      intro u w
      show (Function.update search.state d .onPath u = .finished ∧ _) ∨
        (∃ f ∈ frame byId d :: stack, f.id = u ∧ w ∈ f.dependencies.take f.index) ↔ _
      rw [hfinished, Looked, or_assoc, ← hmarked u w]
      simp [frame]
    simp only [hlooks]
    constructor
    · rintro ⟨q, u, w, start, hq, hl, hw, hx⟩
      exact ⟨q, u, w, start, hq, .inl hl, hw, hx⟩
    · rintro ⟨q, u, w, start, hq, hl | ⟨hu, rfl⟩, hw, hx⟩
      · exact ⟨q, u, w, start, hq, hl, hw, hx⟩
      · -- an unseen extension is not on the least path of the one that leads to it
        rw [hq.unique (h.path_least hu)] at hw
        exact absurd (List.mem_of_getElem? hw) hoff

/-- The dependency the top frame looks at is unseen, and the pass goes on from there. -/
theorem Searching.descend (graph : Graph byId ids) (h : Searching byId ids roots search)
    (hstack : search.stack = current :: below) {d : Text}
    (hget : current.dependencies[current.index]? = some d) (hunseen : search.state d = .unseen) :
    Searching byId ids roots
      (enter byId { search with stack := current.advance :: below } d) := by
  have hleast := h.least_descend graph hstack hget hunseen
  have hdeps := h.frames current (by rw [hstack]; exact List.mem_cons_self)
  have hbelow : ∀ f ∈ below, f ∈ search.stack := by
    intro f hf
    rw [hstack]
    exact List.mem_cons_of_mem _ hf
  have hneeds : Needs byId current.id d := by
    obtain ⟨hlt, hval⟩ := List.getElem?_eq_some_iff.mp hget
    show d ∈ presentDependencies byId current.id
    rw [← hdeps, ← hval]
    exact List.getElem_mem hlt
  have hlinked := h.linked
  rw [hstack] at hlinked
  refine h.entered hunseen (graph.ends _ _ hneeds).2 ?_ ?_ ?_ ?_ ?_ hleast ?_ ?_
  · rw [h.path, hstack]
    rfl
  · intro f hf
    rcases List.mem_cons.mp hf with rfl | hf
    · exact hdeps
    · exact h.frames f (hbelow f hf)
  · exact ⟨⟨current.index, rfl, hget⟩,
      linked_advance (show current.advance.id = current.id from rfl) hlinked⟩
  · intro f hf w hw
    rcases List.mem_cons.mp hf with rfl | hf
    · rcases (mem_take_succ hget w).mp hw with hw | rfl
      · exact .inl (h.looked current (by rw [hstack]; exact List.mem_cons_self) w hw)
      · exact .inr rfl
    · exact .inl (h.looked f (hbelow f hf) w hw)
  · intro q v hq hv hstate hne
    have hdeparts := h.departs q v hq hv hstate
    rw [hstack] at hdeparts
    rcases departs_advance hget hdeparts with hnext | ⟨rest, rfl⟩
    · exact .inr hnext
    · cases rest with
      | nil =>
        have hlast := hq.last
        rw [List.getLast?_concat, Option.some.injEq] at hlast
        exact absurd hlast.symm hne
      | cons x rest =>
        refine .inl ⟨x, rest, ?_, by simp [frame]⟩
        simp [frame, Frame.advance]
  · exact fun r hr => .inl (h.roots r hr)
  · intro u w
    rw [hstack, @looked_tail current below current.advance rfl w d u (mem_take_succ hget),
      h.current_onPath hstack, Option.some.injEq, eq_comm]

theorem mem_addAll (x : Text) : ∀ (values members : List Text),
    x ∈ addAll members values ↔ x ∈ members ∨ x ∈ values := by
  intro values
  induction values with
  | nil => simp [addAll]
  | cons value values ih =>
    intro members
    rw [addAll, List.foldl_cons]
    refine (ih _).trans ?_
    by_cases hv : value ∈ members
    · rw [if_pos hv, List.mem_cons]
      constructor
      · rintro (hx | hx)
        · exact .inl hx
        · exact .inr (.inr hx)
      · rintro (hx | rfl | hx)
        · exact .inl hx
        · exact .inl hv
        · exact .inr hx
    · rw [if_neg hv, List.mem_append, List.mem_singleton, List.mem_cons, or_assoc]

/-- A round of the inner loop. -/
theorem Searching.turn (graph : Graph byId ids) (h : Searching byId ids roots search)
    (hne : search.stack ≠ []) : Searching byId ids roots (turn byId search) := by
  obtain ⟨current, below, hstack⟩ := List.exists_cons_of_ne_nil hne
  unfold ExtensionKit.turn
  rw [hstack]
  cases hget : current.dependencies[current.index]? with
  | none =>
    simp only [hget]
    exact h.finish hstack hget
  | some d =>
    simp only [hget]
    have hnone : search.state d ≠ .onPath → ∀ x, x ∈ search.cycleMembers ↔
        x ∈ search.cycleMembers ∨ ∃ start, search.path[start]? = some d ∧
          x ∈ search.path.drop start := by
      intro hoff x
      constructor
      · exact .inl
      · rintro (hx | ⟨start, hd, -⟩)
        · exact hx
        · exact absurd ((h.onPath d).mpr (List.mem_of_getElem? hd)) hoff
    cases hstate : search.state d with
    | onPath =>
      obtain ⟨start, hstart⟩ := List.mem_iff_getElem?.mp ((h.onPath d).mp hstate)
      simp only [h.index start d hstart]
      refine h.pass hstack hget (by rw [hstate]; simp) fun x => ?_
      rw [mem_addAll]
      refine or_congr_right ⟨fun hx => ⟨start, hstart, hx⟩, ?_⟩
      rintro ⟨other, hother, hx⟩
      have hsame := h.index other d hother
      rw [h.index start d hstart, Option.some.injEq] at hsame
      exact hsame ▸ hx
    | finished => exact h.pass hstack hget (by rw [hstate]; simp) (hnone (by rw [hstate]; simp))
    | unseen => exact h.descend graph hstack hget hstate

/-! ## The whole pass -/

/-- What is left to do: an extension that is unseen will be begun, looked through and finished. -/
def Search.cost (byId : Manifests) (ids : List Text) (search : Search) : ℕ :=
  (ids.map fun id =>
    if search.state id = .unseen then (presentDependencies byId id).length + 1 else 0).sum +
  (search.stack.map fun f => f.dependencies.length - f.index + 1).sum

theorem sum_seen_le (cost : Text → ℕ) {state next : Text → SearchState} {d : Text}
    (hstate : state d = .unseen) (hseen : next d ≠ .unseen)
    (hothers : ∀ id, id ≠ d → next id = state id) :
    ∀ {l : List Text}, d ∈ l →
      (l.map fun id => if next id = .unseen then cost id else 0).sum + cost d ≤
        (l.map fun id => if state id = .unseen then cost id else 0).sum := by
  have hle : ∀ l : List Text,
      (l.map fun id => if next id = .unseen then cost id else 0).sum ≤
        (l.map fun id => if state id = .unseen then cost id else 0).sum := by
    intro l
    refine List.sum_le_sum fun id _ => ?_
    by_cases hid : id = d
    · subst hid
      simp [hseen]
    · simp [hothers id hid]
  intro l
  induction l with
  | nil => simp
  | cons id l ih =>
    intro hmem
    simp only [List.map_cons, List.sum_cons]
    by_cases hid : id = d
    · subst hid
      have := hle l
      simp only [hseen, if_false, hstate, if_true]
      omega
    · have := ih ((List.mem_cons.mp hmem).resolve_left (Ne.symm hid))
      simp only [hothers id hid]
      omega

/-- A round does some of what is left. -/
theorem Searching.cost_turn (graph : Graph byId ids) (h : Searching byId ids roots search)
    (hne : search.stack ≠ []) :
    (ExtensionKit.turn byId search).cost byId ids < search.cost byId ids := by
  obtain ⟨current, below, hstack⟩ := List.exists_cons_of_ne_nil hne
  have hdeps := h.frames current (by rw [hstack]; exact List.mem_cons_self)
  unfold ExtensionKit.turn
  rw [hstack]
  cases hget : current.dependencies[current.index]? with
  | none =>
    have hon : search.state current.id = .onPath := by
      rw [h.onPath, h.path, hstack]
      simp
    have hsame : ∀ id, Function.update search.state current.id .finished id = .unseen ↔
        search.state id = .unseen := by
      intro id
      by_cases hid : id = current.id
      · subst hid
        simp [hon]
      · simp [hid]
    simp only [hget, Search.cost, hstack, hsame, List.map_cons, List.sum_cons]
    omega
  | some d =>
    have hlt := (List.getElem?_eq_some_iff.mp hget).1
    have hsum : ∀ state : Text → SearchState,
        (ids.map fun id => if state id = .unseen then (presentDependencies byId id).length + 1
          else 0).sum + ((current.advance :: below).map fun f =>
            f.dependencies.length - f.index + 1).sum <
        (ids.map fun id => if state id = .unseen then (presentDependencies byId id).length + 1
          else 0).sum + ((current :: below).map fun f =>
            f.dependencies.length - f.index + 1).sum := by
      intro state
      simp only [List.map_cons, List.sum_cons, Frame.advance]
      omega
    simp only [hget]
    cases hstate : search.state d with
    | onPath =>
      obtain ⟨start, hstart⟩ := List.mem_iff_getElem?.mp ((h.onPath d).mp hstate)
      simp only [h.index start d hstart, Search.cost, hstack]
      exact hsum search.state
    | finished =>
      simp only [Search.cost, hstack]
      exact hsum search.state
    | unseen =>
      have hneeds : Needs byId current.id d := by
        obtain ⟨_, hval⟩ := List.getElem?_eq_some_iff.mp hget
        show d ∈ presentDependencies byId current.id
        rw [← hdeps, ← hval]
        exact List.getElem_mem hlt
      have hless := @sum_seen_le (fun id => (presentDependencies byId id).length + 1) search.state
        (enter byId search d).state d hstate (by simp [enter])
        (fun id hid => by simp [enter, hid]) ids (graph.ends _ _ hneeds).2
      have hnext : (enter byId { search with stack := current.advance :: below } d).cost byId ids =
          (ids.map fun id => if (enter byId search d).state id = .unseen then
            (presentDependencies byId id).length + 1 else 0).sum +
          ((frame byId d :: current.advance :: below).map fun f =>
            f.dependencies.length - f.index + 1).sum := rfl
      refine lt_of_eq_of_lt hnext ?_
      simp only [Search.cost, hstack, List.map_cons, List.sum_cons, frame, Frame.advance]
      omega

/-- With as many rounds as there is left to do, the inner loop ends. -/
theorem Searching.walk (graph : Graph byId ids) :
    ∀ (fuel : ℕ) {search : Search}, Searching byId ids roots search →
      search.cost byId ids ≤ fuel →
      Searching byId ids roots (walk byId fuel search) ∧ (walk byId fuel search).stack = [] := by
  intro fuel
  induction fuel with
  | zero =>
    intro search h hcost
    refine ⟨h, ?_⟩
    cases hstack : search.stack with
    | nil => exact hstack
    | cons current below =>
      simp [Search.cost, hstack] at hcost
  | succ fuel ih =>
    intro search h hcost
    rw [ExtensionKit.walk]
    by_cases hempty : search.stack = []
    · rw [if_pos (by simp [hempty])]
      exact ⟨h, hempty⟩
    · rw [if_neg (by simpa using hempty)]
      have := h.cost_turn graph hempty
      exact ih (h.turn graph hempty) (by omega)

theorem sum_unseen_le (cost : Text → ℕ) (state : Text → SearchState) (l : List Text) :
    (l.map fun id => if state id = .unseen then cost id else 0).sum ≤ (l.map cost).sum := by
  refine List.sum_le_sum fun id _ => ?_
  by_cases hid : state id = .unseen <;> simp [hid]

/-- The next root. -/
theorem Searching.searchFrom (graph : Graph byId ids) {root : Text} {rest : List Text}
    (hids : ids = roots ++ root :: rest) (h : Searching byId ids roots search)
    (hstack : search.stack = []) :
    Searching byId ids (roots ++ [root]) (searchFrom byId (rounds byId ids) search root) ∧
      (searchFrom byId (rounds byId ids) search root).stack = [] := by
  have hpath : search.path = [] := by rw [h.path, hstack, framesPath_nil]
  have hroot : root ∈ ids := by rw [hids]; simp
  have hlater : ∀ x ∈ ids, x ∉ roots ++ [root] → root < x := by
    intro x hx hnot
    have hsorted := graph.sorted
    rw [hids, List.pairwise_append] at hsorted
    rw [hids, List.mem_append, List.mem_cons] at hx
    rw [List.mem_append, List.mem_singleton, not_or] at hnot
    rcases hx with hx | hx | hx
    · exact absurd hx hnot.1
    · exact absurd hx hnot.2
    · exact (List.pairwise_cons.mp hsorted.2.1).1 x hx
  have hnext : ∀ q v, SimplePath (Needs byId) q v → v ∈ ids → search.state v = .unseen →
      ∃ x tail, q = x :: tail ∧ x ∉ roots := by
    intro q v hq hv hstate
    have hdeparts := h.departs q v hq hv hstate
    rwa [hstack] at hdeparts
  unfold ExtensionKit.searchFrom
  by_cases hunseen : search.state root = .unseen
  · rw [if_neg (by simp [hunseen])]
    have hleast : LeastPath (Needs byId) [root] root := by
      refine ⟨⟨by simp, by simp, by simp⟩, fun q hq => ?_⟩
      obtain ⟨x, tail, rfl, hx⟩ := hnext q root hq hroot hunseen
      by_cases hxr : x = root
      · exact hxr ▸ le_of_prefix ⟨tail, rfl⟩
      · have hxids : x ∈ ids := by
          cases tail with
          | nil =>
            have hlast := hq.last
            simp only [List.getLast?_singleton, Option.some.injEq] at hlast
            exact hlast ▸ hroot
          | cons y tail => exact (graph.ends x y (List.isChain_cons_cons.mp hq.chain).1).1
        refine (append_lt_append [] (hlater x hxids ?_) [] tail).le
        simp [hx, hxr]
    have hstart : Searching byId ids (roots ++ [root])
        (enter byId { search with path := [], pathIndex := fun _ => none, stack := [] } root) := by
      have hbase : Searching byId ids roots
          { search with path := [], pathIndex := fun _ => none, stack := [] } := by
        have hsame := h.marked
        refine ⟨rfl, by simp, trivial, ?_, by simp, by simp, h.closed, by simp, ?_, by simp,
          h.finished, h.roots, ?_⟩
        · intro x
          rw [h.onPath, hpath]
        · intro q v hq hv hstate
          exact hnext q v hq hv hstate
        · intro x
          refine (h.marked x).trans ?_
          simp only [Looked, hstack]
      refine hbase.entered hunseen hroot rfl (by simp) (fun x hx hnot => hlater x hx hnot) (by simp)
        ?_ hleast ?_ (by simp)
      · intro q v hq hv hstate hne
        obtain ⟨x, tail, rfl, hx⟩ := hnext q v hq hv hstate
        by_cases hxr : x = root
        · cases tail with
          | nil =>
            have hlast := hq.last
            simp only [List.getLast?_singleton, Option.some.injEq] at hlast
            exact absurd (hlast.symm.trans hxr) hne
          | cons y tail => exact .inl ⟨y, tail, by simp [frame, hxr], by simp [frame]⟩
        · exact .inr ⟨x, tail, rfl, by simp [hx, hxr]⟩
      · intro r hr
        rcases List.mem_append.mp hr with hr | hr
        · exact .inl (h.roots r hr)
        · exact .inr (List.mem_singleton.mp hr)
    refine hstart.walk graph _ ?_
    have hless := @sum_seen_le (fun id => (presentDependencies byId id).length + 1) search.state
      (enter byId search root).state root hunseen (by simp [enter])
      (fun id hid => by simp [enter, hid]) ids hroot
    have htotal := sum_unseen_le (fun id => (presentDependencies byId id).length + 1)
      search.state ids
    have hcost : (enter byId { search with path := [], pathIndex := fun _ => none, stack := [] }
        root).cost byId ids =
          (ids.map fun id => if (enter byId search root).state id = .unseen then
            (presentDependencies byId id).length + 1 else 0).sum +
          ((presentDependencies byId root).length - 0 + 1 + 0) := rfl
    rw [rounds]
    omega
  · rw [if_pos hunseen]
    refine ⟨?_, hstack⟩
    refine ⟨h.path, h.frames, ?_, h.onPath, h.index, h.nodup, h.closed, h.looked, ?_, h.least,
      h.finished, ?_, h.marked⟩
    · rw [hstack]
      trivial
    · intro q v hq hv hstate
      obtain ⟨x, tail, rfl, hx⟩ := hnext q v hq hv hstate
      rw [hstack]
      refine ⟨x, tail, rfl, ?_⟩
      rw [List.mem_append, List.mem_singleton, not_or]
      refine ⟨hx, ?_⟩
      rintro rfl
      have hdone : search.state x = .finished := by
        cases hcase : search.state x with
        | unseen => exact absurd hcase hunseen
        | onPath =>
          have := (h.onPath x).mp hcase
          rw [hpath] at this
          cases this
        | finished => rfl
      have hall := h.finished_of_chain hq.chain hdone (by simp [hpath]) v
        (List.mem_of_getLast? hq.last)
      rw [hstate] at hall
      cases hall
    · intro r hr
      rcases List.mem_append.mp hr with hr | hr
      · exact h.roots r hr
      · rw [List.mem_singleton.mp hr]
        exact hunseen

theorem searching_start :
    Searching byId ids [] ⟨fun _ => .unseen, [], [], fun _ => none, []⟩ := by
  refine ⟨rfl, by simp, trivial, by simp, by simp, by simp, by simp, by simp, ?_, by simp, by simp,
    by simp, ?_⟩
  · intro q v hq _ _
    cases q with
    | nil => exact absurd rfl hq.ne_nil
    | cons x rest => exact ⟨x, rest, rfl, by simp⟩
  · intro x
    simp [Looked]

theorem searching_roots (graph : Graph byId ids) :
    ∀ (rest roots : List Text), ids = roots ++ rest → ∀ {search : Search},
      Searching byId ids roots search → search.stack = [] →
      Searching byId ids ids (rest.foldl (ExtensionKit.searchFrom byId (rounds byId ids)) search) ∧
        (rest.foldl (ExtensionKit.searchFrom byId (rounds byId ids)) search).stack = [] := by
  intro rest
  induction rest with
  | nil =>
    intro roots hids search h hstack
    rw [List.append_nil] at hids
    subst hids
    exact ⟨h, hstack⟩
  | cons root rest ih =>
    intro roots hids search h hstack
    obtain ⟨hnext, hempty⟩ := h.searchFrom graph hids hstack
    exact ih (roots ++ [root]) (by simp [hids]) hnext hempty

/-- After the pass every extension is finished. -/
theorem searchAll_finished (graph : Graph byId ids) :
    Searching byId ids ids (searchAll byId ids) ∧
      ∀ x ∈ ids, (searchAll byId ids).state x = .finished := by
  obtain ⟨h, hstack⟩ := searching_roots graph ids [] rfl searching_start rfl
  refine ⟨h, fun x hx => ?_⟩
  cases hcase : (searchAll byId ids).state x with
  | unseen => exact absurd hcase (h.roots x hx)
  | onPath =>
    have := (h.onPath x).mp hcase
    rw [h.path, hstack] at this
    cases this
  | finished => rfl

/-- **What the pass collects**: the extensions between the two ends of a dependency that leads
back into the least path of its dependent. -/
theorem mem_findCycleMembers (graph : Graph byId ids) (x : Text) :
    x ∈ findCycleMembers byId ids ↔ ClosedAt (Needs byId) x := by
  obtain ⟨h, hfinished⟩ := searchAll_finished graph
  have hstack : (searchAll byId ids).stack = [] :=
    (searching_roots graph ids [] rfl searching_start rfl).2
  have hlooked : ∀ u w, Looked byId (searchAll byId ids) u w ↔ Needs byId u w := by
    intro u w
    simp only [Looked, hstack, List.not_mem_nil, false_and, exists_false, or_false,
      and_iff_right_iff_imp]
    exact fun hneeds => hfinished u (graph.ends u w hneeds).1
  rw [findCycleMembers, sortTexts, List.mem_insertionSort, h.marked]
  simp only [hlooked]
  rfl

/-- Every extension has a least path. -/
theorem exists_leastPath (graph : Graph byId ids) {x : Text} (hx : x ∈ ids) :
    ∃ q, LeastPath (Needs byId) q x := by
  obtain ⟨h, hfinished⟩ := searchAll_finished graph
  exact h.finished x (hfinished x hx)

theorem mem_of_onCycle (graph : Graph byId ids) {x : Text} (h : OnCycle (Needs byId) x) :
    x ∈ ids := by
  obtain ⟨w, hw, -⟩ := Relation.TransGen.head'_iff.mp h
  exact (graph.ends x w hw).1

/-- The pass collects nothing exactly when there is no cycle. -/
theorem findCycleMembers_eq_nil (graph : Graph byId ids) :
    findCycleMembers byId ids = [] ↔ ∀ x, ¬ OnCycle (Needs byId) x := by
  rw [List.eq_nil_iff_forall_not_mem]
  constructor
  · intro h x hx
    obtain ⟨w, hw⟩ := exists_closedAt ids.toFinset
      (fun y hy => List.mem_toFinset.mpr (mem_of_onCycle graph hy))
      (fun y hy => exists_leastPath graph (mem_of_onCycle graph hy)) hx
    exact h w ((mem_findCycleMembers graph w).mpr hw)
  · intro h x hx
    exact h x ((mem_findCycleMembers graph x).mp hx).onCycle

end Rounds

end OpenGameAgent.ExtensionKit
