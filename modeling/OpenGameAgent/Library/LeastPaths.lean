import Mathlib.Data.List.Chain
import Mathlib.Data.List.Lex
import Mathlib.Data.Finset.Max
import Mathlib.Logic.Relation

/-!
# Least paths in an ordered graph

The vertices of a directed graph are linearly ordered, so the simple paths to a vertex are
ordered as words are, and a least one among them is the path that a depth-first search in the
order of the vertices finds.

* `SimplePath` and `LeastPath` — a path without repetitions, and the first of those to one vertex.
* `ClosedAt` — a vertex that lies between the two ends of an edge that leads back into the least
  path of the vertex it leaves.  `ClosedAt.onCycle`: it lies on a cycle.
* `exists_closedAt` — a graph with a cycle has such a vertex, though not every vertex on a cycle
  need be one.
-/

namespace LeastPaths

variable {α : Type*} [LinearOrder α] {edge : α → α → Prop} {path other : List α} {u v w : α}

/-- A path to `v` that goes through no vertex twice. -/
structure SimplePath (edge : α → α → Prop) (path : List α) (v : α) : Prop where
  nodup : path.Nodup
  chain : path.IsChain edge
  last : path.getLast? = some v

/-- The first simple path to `v` in the order of words. -/
structure LeastPath (edge : α → α → Prop) (path : List α) (v : α) : Prop
    extends SimplePath edge path v where
  least : ∀ other, SimplePath edge other v → path ≤ other

/-- Some edge `u → w` leads back into the least path of `u`, and `v` lies on it from `w` on. -/
def ClosedAt (edge : α → α → Prop) (v : α) : Prop :=
  ∃ path u w start, LeastPath edge path u ∧ edge u w ∧ path[start]? = some w ∧
    v ∈ path.drop start

/-- The vertex can be reached from itself. -/
def OnCycle (edge : α → α → Prop) (v : α) : Prop :=
  Relation.TransGen edge v v

theorem LeastPath.unique (h : LeastPath edge path v) (h' : LeastPath edge other v) :
    path = other :=
  le_antisymm (h.least other h'.toSimplePath) (h'.least path h.toSimplePath)

omit [LinearOrder α] in
theorem SimplePath.ne_nil (h : SimplePath edge path v) : path ≠ [] := by
  rintro rfl
  simpa using h.last

omit [LinearOrder α] in
/-- The part of a simple path up to one of its vertices. -/
theorem SimplePath.upTo (h : SimplePath edge path v) (hw : w ∈ path) :
    ∃ before after, path = before ++ w :: after ∧ SimplePath edge (before ++ [w]) w := by
  obtain ⟨before, after, rfl⟩ := List.append_of_mem hw
  have hsplit : before ++ w :: after = (before ++ [w]) ++ after := by simp
  refine ⟨before, after, rfl, ?_, ?_, by simp⟩
  · exact (hsplit ▸ h.nodup).of_append_left
  · exact (hsplit ▸ h.chain).left_of_append

omit [LinearOrder α] in
theorem SimplePath.snoc (h : SimplePath edge path u) (huw : edge u w) (hw : w ∉ path) :
    SimplePath edge (path ++ [w]) w := by
  refine ⟨?_, ?_, by simp⟩
  · exact List.nodup_append.mpr ⟨h.nodup, by simp, by
      intro a ha b hb
      rw [List.mem_singleton.mp hb]
      rintro rfl
      exact hw ha⟩
  · refine List.isChain_append.mpr ⟨h.chain, by simp, ?_⟩
    intro x hx y hy
    rw [h.last, Option.mem_some_iff] at hx
    simp only [List.head?_cons, Option.mem_some_iff] at hy
    exact hx ▸ hy ▸ huw

/-! ## Words between a word and its extension -/

theorem head_le_of_cons_le {a b : α} {p q : List α} (h : a :: p ≤ b :: q) : a ≤ b :=
  not_lt.mp fun hlt => absurd (List.cons_lt_cons_iff.mpr (.inl hlt)) (not_lt.mpr h)

theorem prefix_of_le_of_le : ∀ {p q r : List α}, p ≤ q → q ≤ p ++ r → p <+: q
  | [], _, _, _, _ => List.nil_prefix
  | a :: p, [], _, hpq, _ => absurd (List.nil_lt_cons a p) (not_lt.mpr hpq)
  | a :: p, b :: q, r, hpq, hqr => by
    rw [List.cons_append] at hqr
    have hab : a ≤ b := head_le_of_cons_le hpq
    have hba : b ≤ a := head_le_of_cons_le hqr
    obtain rfl : a = b := le_antisymm hab hba
    have hp : p ≤ q := not_lt.mp fun hlt =>
      absurd (List.cons_lt_cons_iff.mpr (.inr ⟨rfl, hlt⟩)) (not_lt.mpr hpq)
    have hq : q ≤ p ++ r := not_lt.mp fun hlt =>
      absurd (List.cons_lt_cons_iff.mpr (.inr ⟨rfl, hlt⟩)) (not_lt.mpr hqr)
    exact List.cons_prefix_cons.mpr ⟨rfl, prefix_of_le_of_le hp hq⟩

theorem lt_append_cons (p : List α) (a : α) (r : List α) : p < p ++ a :: r := by
  induction p with
  | nil => exact List.nil_lt_cons a r
  | cons b p ih => exact List.cons_lt_cons_iff.mpr (.inr ⟨rfl, ih⟩)

theorem le_of_prefix {p q : List α} (h : p <+: q) : p ≤ q := by
  obtain ⟨r, rfl⟩ := h
  cases r with
  | nil => simp
  | cons a r => exact (lt_append_cons p a r).le

/-! ## Closing edges and cycles -/

omit [LinearOrder α] in
/-- Along a path every vertex leads to every later one. -/
theorem reflTransGen_of_chain :
    ∀ {path : List α} {a : α}, (a :: path).IsChain edge → ∀ b ∈ a :: path,
      Relation.ReflTransGen edge a b
  | [], a, _, b, hb => by
    rw [List.mem_singleton.mp hb]
  | c :: path, a, hchain, b, hb => by
    rw [List.isChain_cons_cons] at hchain
    rcases List.mem_cons.mp hb with rfl | hb
    · exact .refl
    · exact .head hchain.1 (reflTransGen_of_chain hchain.2 b hb)

theorem ClosedAt.onCycle (h : ClosedAt edge v) : OnCycle edge v := by
  obtain ⟨path, u, w, start, hleast, huw, hw, hv⟩ := h
  obtain ⟨hstart, hget⟩ := List.getElem?_eq_some_iff.mp hw
  have hdrop : path.drop start = w :: path.drop (start + 1) := by
    rw [List.drop_eq_getElem_cons hstart, hget]
  have hchain : (w :: path.drop (start + 1)).IsChain edge := hdrop ▸ hleast.chain.drop start
  have hwv := reflTransGen_of_chain hchain v (hdrop ▸ hv)
  obtain ⟨before, after, hsplit⟩ := List.append_of_mem hv
  have hchainv : (v :: after).IsChain edge := by
    have := hleast.chain.drop start
    rw [hsplit] at this
    exact this.right_of_append
  have hlast : u ∈ v :: after := by
    have hlast := hleast.last
    rw [← List.take_append_drop start path, hsplit] at hlast
    have hsome : (v :: after).getLast? = some u := by
      simpa [List.getLast?_append] using hlast
    exact List.mem_of_getLast? hsome
  have hvu := reflTransGen_of_chain hchainv u hlast
  exact Relation.TransGen.trans_right hvu (Relation.TransGen.head' huw hwv)

/-- A vertex on a cycle whose least path comes first: the least paths of all vertices of its
cycles go through it. -/
theorem prefix_of_minimal {p : List α} (hp : LeastPath edge p w)
    (hex : ∀ x, OnCycle edge x → ∃ q, LeastPath edge q x)
    (hmin : ∀ x q, OnCycle edge x → LeastPath edge q x → p ≤ q)
    (hw : OnCycle edge w) (hwu : Relation.ReflTransGen edge w u)
    (huw : Relation.ReflTransGen edge u w) {q : List α} (hq : LeastPath edge q u) : p <+: q := by
  induction hwu generalizing q with
  | refl => rw [hp.unique hq]
  | @tail y z hwy hyz ih =>
    have hyw : Relation.ReflTransGen edge y w := .head hyz huw
    have hyCycle : OnCycle edge y :=
      Relation.TransGen.trans_left (Relation.TransGen.trans_right hyw hw) hwy
    have hzCycle : OnCycle edge z :=
      Relation.TransGen.trans_left (Relation.TransGen.trans_right huw hw) (hwy.tail hyz)
    obtain ⟨path, hpath⟩ := hex y hyCycle
    obtain ⟨rest, hrest⟩ := ih hyw hpath
    have hle := hmin z q hzCycle hq
    by_cases hz : z ∈ path
    · rw [← hrest] at hz
      rcases List.mem_append.mp hz with hin | hafter
      · -- a vertex of `p` cannot come before `w`: its least path would come first
        obtain ⟨before, after, hsplit, hsimple⟩ := hp.toSimplePath.upTo hin
        have hqle := hq.least _ hsimple
        cases after with
        | nil =>
          rw [hsplit]
          exact prefix_of_le_of_le (hsplit ▸ hle) (by simpa using hqle)
        | cons a after =>
          have hlt : before ++ [z] < p := by
            rw [hsplit]
            simpa using lt_append_cons (before ++ [z]) a after
          exact absurd (lt_of_le_of_lt hqle hlt) (not_lt.mpr hle)
      · obtain ⟨before, after, hsplit⟩ := List.append_of_mem hafter
        have hcut : path = (p ++ before ++ [z]) ++ after := by rw [← hrest, hsplit]; simp
        have hsimple : SimplePath edge (p ++ before ++ [z]) z :=
          ⟨(hcut ▸ hpath.nodup).of_append_left, (hcut ▸ hpath.chain).left_of_append, by simp⟩
        refine prefix_of_le_of_le hle (r := before ++ [z]) ?_
        simpa using hq.least _ hsimple
    · have hsimple := hpath.toSimplePath.snoc hyz hz
      refine prefix_of_le_of_le hle (r := rest ++ [z]) ?_
      have := hq.least _ hsimple
      rwa [← hrest, List.append_assoc] at this

/-- A graph with a cycle has a vertex that an edge closes into its least path. -/
theorem exists_closedAt (vertices : Finset α) (hvertices : ∀ x, OnCycle edge x → x ∈ vertices)
    (hex : ∀ x, OnCycle edge x → ∃ q, LeastPath edge q x) (hv : OnCycle edge v) :
    ∃ w, ClosedAt edge w := by
  classical
  choose! least hleast using hex
  obtain ⟨w, hw, hmin⟩ := Finset.exists_min_image (vertices.filter (OnCycle edge)) least
    ⟨v, Finset.mem_filter.mpr ⟨hvertices v hv, hv⟩⟩
  obtain ⟨-, hwCycle⟩ := Finset.mem_filter.mp hw
  have hminimal : ∀ x q, OnCycle edge x → LeastPath edge q x → least w ≤ q := by
    intro x q hx hq
    rw [hq.unique (hleast x hx)]
    exact hmin x (Finset.mem_filter.mpr ⟨hvertices x hx, hx⟩)
  obtain ⟨u, hwu, huw⟩ := Relation.TransGen.tail'_iff.mp hwCycle
  have huCycle : OnCycle edge u := Relation.TransGen.trans_left (.single huw) hwu
  obtain ⟨rest, hrest⟩ := prefix_of_minimal (hleast w hwCycle) (fun x hx => ⟨_, hleast x hx⟩)
    hminimal hwCycle hwu (.single huw) (hleast u huCycle)
  have hmem : w ∈ least u := by
    rw [← hrest]
    exact List.mem_append_left _ (List.mem_of_getLast? (hleast w hwCycle).last)
  obtain ⟨start, hstart⟩ := List.mem_iff_getElem?.mp hmem
  refine ⟨w, least u, u, w, start, hleast u huCycle, huw, hstart, ?_⟩
  obtain ⟨hlt, hget⟩ := List.getElem?_eq_some_iff.mp hstart
  rw [List.drop_eq_getElem_cons hlt, hget]
  exact List.mem_cons_self

end LeastPaths
