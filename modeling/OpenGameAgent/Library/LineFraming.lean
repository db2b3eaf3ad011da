import Mathlib.Data.List.Basic
import Mathlib.Data.List.Induction

/-!
# Lines and events of a stream

A line ends with the pair of a carriage return and a line feed, or with one of the two alone; an
event ends with a blank line.  `lines` and `events` cut a whole input.  A reader that sees one symbol
at a time keeps a `Cursor`: the lines that have ended, and the line it is in.  After a carriage
return it is in the line still, until it has seen the next symbol (`settle`).

* `foldl_push` — the cursor behind an input has the lines of the input.
* `overflows_iff` — a count of the event so far passes a limit somewhere in an input exactly when
  some event of the input is longer than the limit.
-/

namespace LineFraming

variable {α : Type} {cr lf : α}

/-! ## A whole input -/

/-- One symbol more at the front of the first line. -/
def extend (b : α) : List (List α) → List (List α)
  | [] => [[b]]
  | line :: more => (b :: line) :: more

/-- Each line with whether it is the first one. -/
def flagged : List (List α) → List (List α × Bool)
  | [] => []
  | line :: more => (line, true) :: more.map fun line => (line, false)

@[simp] theorem flagged_fst (more : List (List α)) : (flagged more).map Prod.fst = more := by
  cases more <;> simp [flagged, Function.comp_def]

theorem flagged_concat (earlier : List (List α)) (line : List α) :
    flagged (earlier ++ [line]) = flagged earlier ++ [(line, decide (earlier = []))] := by
  cases earlier <;> simp [flagged]

theorem flagged_append (earlier later : List (List α)) :
    flagged earlier <+: flagged (earlier ++ later) := by
  induction later using List.reverseRecOn with
  | nil => simp
  | append_singleton later line ih =>
    rw [← List.append_assoc, flagged_concat]
    exact ih.trans (List.prefix_append _ _)

section

variable [DecidableEq α]

/-- The lines of an input, each with its terminator; the last one may have none. -/
def lines (cr lf : α) : List α → List (List α)
  | [] => []
  | b :: rest =>
    if b = lf ∨ b = cr ∧ rest.head? ≠ some lf then [b] :: lines cr lf rest
    else extend b (lines cr lf rest)

/-- A line that holds its terminator alone. -/
def isBlank (cr lf : α) (line : List α) : Bool := line.all fun b => b = cr || b = lf

/-- The events of some lines, where `opened` stands of the first one already. -/
def eventsFrom (cr lf : α) (opened : List α) : List (List α) → List (List α)
  | [] => if opened = [] then [] else [opened]
  | line :: more =>
    if isBlank cr lf line then (opened ++ line) :: eventsFrom cr lf [] more
    else eventsFrom cr lf (opened ++ line) more

/-- The events of an input: from behind a blank line to the end of the next one, or of the input. -/
def events (cr lf : α) (input : List α) : List (List α) := eventsFrom cr lf [] (lines cr lf input)

/-- The lines whose end shows in the input: all but a last one that no line feed ends. -/
def finishedLines (cr lf : α) (input : List α) : List (List α) :=
  if ((lines cr lf input).getLast?.bind fun last => last.getLast?) = some lf then lines cr lf input
  else (lines cr lf input).dropLast

end

theorem flatten_extend (b : α) (more : List (List α)) :
    (extend b more).flatten = b :: more.flatten := by
  cases more <;> rfl

/-- A body is a part of a line before its terminator. -/
def IsBody (cr lf : α) (body : List α) : Prop := ∀ b ∈ body, b ≠ cr ∧ b ≠ lf

theorem isBody_nil : IsBody cr lf [] := nofun

theorem IsBody.append {body : List α} (h : IsBody cr lf body) {b : α} (hcr : b ≠ cr)
    (hlf : b ≠ lf) : IsBody cr lf (body ++ [b]) := by
  intro c hc
  cases List.mem_append.mp hc with
  | inl hold => exact h c hold
  | inr hnew =>
    obtain rfl := List.mem_singleton.mp hnew
    exact ⟨hcr, hlf⟩

variable [DecidableEq α]

theorem flatten_lines (cr lf : α) (input : List α) : (lines cr lf input).flatten = input := by
  induction input with
  | nil => rfl
  | cons b rest ih =>
    rw [lines]
    split
    · rw [List.flatten_cons, ih]
      rfl
    · rw [flatten_extend, ih]

/-- At most the last line is not finished, and then no line feed ends it. -/
theorem lines_finished (cr lf : α) (input : List α) :
    lines cr lf input = finishedLines cr lf input ∨
      ∃ last, lines cr lf input = finishedLines cr lf input ++ [last] ∧
        last.getLast? ≠ some lf := by
  rw [finishedLines]
  split
  · exact Or.inl rfl
  · rename_i hend
    obtain hnil | ⟨earlier, last, hsplit⟩ := List.eq_nil_or_concat (lines cr lf input)
    · exact Or.inl (by rw [hnil, List.dropLast_nil])
    · rw [List.concat_eq_append] at hsplit
      rw [hsplit, List.getLast?_concat] at hend
      refine Or.inr ⟨last, ?_, hend⟩
      rw [hsplit, List.dropLast_concat]

/-- A body at the front of an input is at the front of its first line. -/
theorem lines_body {body : List α} (h : IsBody cr lf body) {input line : List α}
    {more : List (List α)} (hlines : lines cr lf input = line :: more) :
    lines cr lf (body ++ input) = (body ++ line) :: more := by
  induction body with
  | nil => exact hlines
  | cons b body ih =>
    obtain ⟨hcr, hlf⟩ := h b List.mem_cons_self
    have hrest := ih fun c hc => h c (List.mem_cons_of_mem b hc)
    rw [List.cons_append, lines, hrest, if_neg (by simp [hcr, hlf])]
    rfl

theorem lines_lf (cr lf : α) (rest : List α) :
    lines cr lf (lf :: rest) = [lf] :: lines cr lf rest := by
  rw [lines, if_pos (Or.inl rfl)]

theorem lines_crlf (hne : cr ≠ lf) (rest : List α) :
    lines cr lf (cr :: lf :: rest) = [cr, lf] :: lines cr lf rest := by
  rw [lines, if_neg (by simp [hne]), lines_lf]
  rfl

theorem lines_cr {rest : List α} (h : rest.head? ≠ some lf) :
    lines cr lf (cr :: rest) = [cr] :: lines cr lf rest := by
  rw [lines, if_pos (Or.inr ⟨rfl, h⟩)]

theorem isBlank_append {body terminator : List α} (h : IsBody cr lf body)
    (hterminator : isBlank cr lf terminator = true) :
    isBlank cr lf (body ++ terminator) = decide (body = []) := by
  cases body with
  | nil => simpa using hterminator
  | cons b body =>
    obtain ⟨hcr, hlf⟩ := h b List.mem_cons_self
    simp [isBlank, hcr, hlf]

/-! ## One symbol at a time -/

/-- Where a reader is: the lines that have ended, what stands of the event before the line it is in,
the body of that line, and whether a carriage return has come behind it. -/
structure Cursor (α : Type) where
  done : List (List α)
  opened : List α
  body : List α
  pending : Bool

namespace Cursor

def start : Cursor α := ⟨[], [], [], false⟩

/-- What has been seen of the line. -/
def current (cr : α) (c : Cursor α) : List α := c.body ++ if c.pending then [cr] else []

/-- The line ends with a terminator. -/
def finish (cr lf : α) (c : Cursor α) (terminator : List α) : Cursor α :=
  let line := c.body ++ terminator
  ⟨c.done ++ [line], if isBlank cr lf line then [] else c.opened ++ line, [], false⟩

/-- What the next symbol says of a carriage return before it. -/
def settle (cr lf : α) (c : Cursor α) (b : α) : Cursor α :=
  if c.pending = true ∧ b ≠ lf then c.finish cr lf [cr] else c

/-- The symbol itself. -/
def add (cr lf : α) (c : Cursor α) (b : α) : Cursor α :=
  if c.pending then c.finish cr lf [cr, b]
  else if b = cr then { c with pending := true }
  else if b = lf then c.finish cr lf [lf]
  else { c with body := c.body ++ [b] }

def push (cr lf : α) (c : Cursor α) (b : α) : Cursor α := (c.settle cr lf b).add cr lf b

/-- The length of the event so far. -/
def size (cr : α) (c : Cursor α) : ℕ := c.opened.length + (c.current cr).length

/-- What holds of a reader: its body is one, and only a line feed or the start leaves it in no
line. -/
structure Sound (cr lf : α) (c : Cursor α) : Prop where
  body : IsBody cr lf c.body
  between : c.current cr = [] → c.done = [] ∨ ∃ earlier line, c.done = earlier ++ [line ++ [lf]]

variable {c : Cursor α} {b : α}

omit [DecidableEq α] in
theorem start_sound : (start : Cursor α).Sound cr lf := ⟨nofun, fun _ => Or.inl rfl⟩

@[simp] theorem finish_body (terminator : List α) : (c.finish cr lf terminator).body = [] := rfl

@[simp] theorem finish_current (terminator : List α) :
    (c.finish cr lf terminator).current cr = [] := rfl

@[simp] theorem finish_pending (terminator : List α) :
    (c.finish cr lf terminator).pending = false := rfl

theorem settle_pending (h : (c.settle cr lf b).pending = true) : b = lf := by
  rw [settle] at h
  split at h
  · cases h
  · rename_i hstays
    by_contra hne
    exact hstays ⟨h, hne⟩

/-- Behind a symbol the reader is in the line of the symbol, or has ended it at a line feed. -/
theorem Sound.push (h : c.Sound cr lf) (hne : cr ≠ lf) (b : α) : (c.push cr lf b).Sound cr lf := by
  have hbody : IsBody cr lf (c.settle cr lf b).body := by
    rw [settle]
    split
    · exact isBody_nil
    · exact h.body
  rw [Cursor.push, add]
  split
  · rename_i hpending
    obtain rfl := settle_pending hpending
    refine ⟨isBody_nil, fun _ => Or.inr ⟨(c.settle cr b b).done, (c.settle cr b b).body ++ [cr], ?_⟩⟩
    simp [finish]
  · split
    · refine ⟨hbody, fun hempty => ?_⟩
      simp [current] at hempty
    · split
      · exact ⟨isBody_nil, fun _ => Or.inr ⟨_, _, rfl⟩⟩
      · rename_i hpending hcr hlf
        refine ⟨hbody.append hcr hlf, fun hempty => ?_⟩
        simp [current] at hempty

/-- A reader that is given more symbols. -/
def pushAll (cr lf : α) (c : Cursor α) (input : List α) : Cursor α :=
  input.foldl (push cr lf) c

theorem Sound.pushAll (h : c.Sound cr lf) (hne : cr ≠ lf) (input : List α) :
    (c.pushAll cr lf input).Sound cr lf := by
  induction input generalizing c with
  | nil => exact h
  | cons b rest ih => exact ih (h.push hne b)

/-- The lines from the one that the reader is in. -/
def ahead (cr lf : α) (c : Cursor α) (input : List α) : List (List α) :=
  lines cr lf (c.current cr ++ input)

theorem finish_done (terminator : List α) :
    (c.finish cr lf terminator).done = c.done ++ [c.body ++ terminator] := rfl

theorem finish_ahead (terminator input : List α) :
    (c.finish cr lf terminator).ahead cr lf input = lines cr lf input := rfl

/-- The two ways a symbol leaves the reader: in the line that it was in, or behind its end. -/
theorem settle_ahead (h : IsBody cr lf c.body) (b : α) (rest : List α) :
    c.settle cr lf b = c ∨
      c.settle cr lf b = c.finish cr lf [cr] ∧ c.current cr = c.body ++ [cr] ∧
        c.ahead cr lf (b :: rest) = (c.body ++ [cr]) :: lines cr lf (b :: rest) := by
  rw [settle]
  split
  · rename_i hsettles
    have hcurrent : c.current cr = c.body ++ [cr] := by rw [current, if_pos hsettles.1]
    refine Or.inr ⟨rfl, hcurrent, ?_⟩
    rw [ahead, hcurrent, List.append_assoc]
    exact lines_body h (lines_cr (by simpa using hsettles.2))
  · exact Or.inl rfl

/-- A symbol behind which the reader is in its line still, or has come to its end. -/
theorem add_ahead (h : IsBody cr lf c.body) (hne : cr ≠ lf) (hpending : c.pending = true → b = lf)
    (rest : List α) :
    ((c.add cr lf b).done = c.done ∧ (c.add cr lf b).opened = c.opened ∧
        (c.add cr lf b).current cr = c.current cr ++ [b]) ∨
      ∃ terminator, c.add cr lf b = c.finish cr lf terminator ∧
        c.body ++ terminator = c.current cr ++ [b] ∧
        c.ahead cr lf (b :: rest) = (c.body ++ terminator) :: lines cr lf rest := by
  rw [add]
  split
  · rename_i hcr
    obtain rfl := hpending hcr
    have hcurrent : c.current cr = c.body ++ [cr] := by rw [current, if_pos hcr]
    refine Or.inr ⟨_, rfl, by simp [hcurrent], ?_⟩
    rw [ahead, hcurrent, List.append_assoc]
    exact lines_body h (lines_crlf hne rest)
  · rename_i hbody
    have hcurrent : c.current cr = c.body := by rw [current, if_neg hbody, List.append_nil]
    split
    · rename_i hb
      subst hb
      refine Or.inl ⟨rfl, rfl, ?_⟩
      rw [hcurrent]
      rfl
    · split
      · rename_i hb
        subst hb
        refine Or.inr ⟨_, rfl, by rw [hcurrent], ?_⟩
        rw [ahead, hcurrent]
        exact lines_body h (lines_lf cr b rest)
      · refine Or.inl ⟨rfl, rfl, ?_⟩
        rw [hcurrent, current, if_neg hbody, List.append_nil]

theorem settle_body (h : IsBody cr lf c.body) (b : α) : IsBody cr lf (c.settle cr lf b).body := by
  rw [settle]
  split
  · exact isBody_nil
  · exact h

/-- The reader is behind some of the lines, and the others are ahead of it. -/
theorem push_ahead (h : IsBody cr lf c.body) (hne : cr ≠ lf) (b : α) (rest : List α) :
    (c.push cr lf b).done ++ (c.push cr lf b).ahead cr lf rest =
      c.done ++ c.ahead cr lf (b :: rest) := by
  have hsettle : (c.settle cr lf b).done ++ (c.settle cr lf b).ahead cr lf (b :: rest) =
      c.done ++ c.ahead cr lf (b :: rest) := by
    obtain hstays | ⟨hsettles, -, hahead⟩ := settle_ahead h b rest
    · rw [hstays]
    · rw [hsettles, hahead, finish_ahead, finish_done, List.append_assoc]
      rfl
  rw [← hsettle, push]
  obtain ⟨hdone, -, hcurrent⟩ | ⟨terminator, hadd, -, hahead⟩ :=
    add_ahead (settle_body h b) hne settle_pending rest
  · rw [hdone, ahead, ahead, hcurrent, List.append_assoc]
    rfl
  · rw [hadd, hahead, finish_ahead, finish_done, List.append_assoc]
    rfl

theorem pushAll_ahead (h : c.Sound cr lf) (hne : cr ≠ lf) (input : List α) :
    (c.pushAll cr lf input).done ++ (c.pushAll cr lf input).ahead cr lf [] =
      c.done ++ c.ahead cr lf input := by
  induction input generalizing c with
  | nil => rfl
  | cons b rest ih => exact (ih (h.push hne b)).trans (push_ahead h.body hne b rest)

/-- The line that the reader is in, where it is in one. -/
theorem ahead_nil (h : IsBody cr lf c.body) :
    c.ahead cr lf [] = if c.current cr = [] then [] else [c.current cr] := by
  rw [ahead, List.append_nil]
  by_cases hpending : c.pending = true
  · have hcurrent : c.current cr = c.body ++ [cr] := by rw [current, if_pos hpending]
    rw [hcurrent, if_neg (by simp)]
    have hend : ([] : List α).head? ≠ some lf := by simp
    exact lines_body h (lines_cr hend)
  · have hcurrent : c.current cr = c.body := by rw [current, if_neg hpending, List.append_nil]
    rw [hcurrent]
    split
    · rename_i hnil
      rw [hnil]
      rfl
    · rename_i hbody
      obtain ⟨body, last, hsplit⟩ := List.eq_nil_or_concat _ |>.resolve_left hbody
      rw [List.concat_eq_append] at hsplit
      rw [hsplit] at h ⊢
      obtain ⟨hcr, hlf⟩ := h last (List.mem_append_right _ (List.mem_singleton_self _))
      have hlast : lines cr lf [last] = [[last]] := by
        rw [lines, if_neg (by simp [hcr, hlf])]
        rfl
      exact lines_body (fun b hb => h b (List.mem_append_left _ hb)) hlast

/-- Behind an input, the lines that have ended are those whose end shows in it, and the reader is in
the rest. -/
theorem pushAll_start (hne : cr ≠ lf) (input : List α) :
    (start.pushAll cr lf input).done = finishedLines cr lf input ∧
      lines cr lf input = (start.pushAll cr lf input).done ++
        (start.pushAll cr lf input).ahead cr lf [] := by
  have hsound := start_sound.pushAll hne input
  have hlines : lines cr lf input = (start.pushAll cr lf input).done ++
      (start.pushAll cr lf input).ahead cr lf [] :=
    (pushAll_ahead start_sound hne input).symm
  refine ⟨?_, hlines⟩
  generalize start.pushAll cr lf input = c at hsound hlines
  rw [finishedLines, hlines, ahead_nil hsound.body]
  by_cases hnil : c.current cr = []
  · rw [if_pos hnil, List.append_nil]
    obtain hdone | ⟨earlier, line, hdone⟩ := hsound.between hnil
    · simp [hdone]
    · simp [hdone]
  · rw [if_neg hnil, if_neg, List.dropLast_concat]
    intro hlf
    rw [List.getLast?_concat] at hlf
    have hlast : (c.current cr).getLast? = some lf := hlf
    have hmem : lf ∈ c.current cr := List.mem_of_getLast? hlast
    rw [current] at hmem
    cases List.mem_append.mp hmem with
    | inl hbody => exact (hsound.body lf hbody).2 rfl
    | inr hcr =>
      split at hcr
      · exact hne (List.mem_singleton.mp hcr).symm
      · cases hcr

/-- Everything that the reader has seen. -/
def seen (cr : α) (c : Cursor α) : List α := c.done.flatten ++ c.current cr

theorem push_seen (c : Cursor α) (b : α) : (c.push cr lf b).seen cr = c.seen cr ++ [b] := by
  have hsettle : (c.settle cr lf b).seen cr = c.seen cr := by
    rw [settle]
    split
    · rename_i hsettles
      simp [seen, finish_done, current, hsettles.1]
    · rfl
  rw [← hsettle, push]
  generalize c.settle cr lf b = d
  rw [add]
  split
  · rename_i hpending
    simp [seen, finish_done, current, hpending]
  · rename_i hpending
    split
    · rename_i hb
      simp [seen, current, hpending, hb]
    · split
      · rename_i hb
        simp [seen, finish_done, current, hpending, hb]
      · simp [seen, current, hpending]

theorem pushAll_seen (cr lf : α) (c : Cursor α) (input : List α) :
    (c.pushAll cr lf input).seen cr = c.seen cr ++ input := by
  induction input generalizing c with
  | nil => exact (List.append_nil _).symm
  | cons b rest ih =>
    have hrest := ih (c.push cr lf b)
    rw [push_seen, List.append_assoc] at hrest
    exact hrest

theorem settle_done (c : Cursor α) (b : α) : c.done <+: (c.settle cr lf b).done := by
  rw [settle]
  split
  · exact List.prefix_append _ _
  · exact List.prefix_refl _

theorem add_done (c : Cursor α) (b : α) : c.done <+: (c.add cr lf b).done := by
  rw [add]
  split
  · exact List.prefix_append _ _
  · split
    · exact List.prefix_refl _
    · split
      · exact List.prefix_append _ _
      · exact List.prefix_refl _

theorem pushAll_done (cr lf : α) (c : Cursor α) (input : List α) : c.done <+: (c.pushAll cr lf input).done := by
  induction input generalizing c with
  | nil => exact List.prefix_refl _
  | cons b rest ih =>
    exact ((settle_done c b).trans (add_done _ b)).trans (ih _)

theorem pushAll_append (c : Cursor α) (input more : List α) :
    c.pushAll cr lf (input ++ more) = (c.pushAll cr lf input).pushAll cr lf more :=
  List.foldl_append ..

/-- The line that the reader is in is at the front of the first line ahead. -/
theorem exists_ahead (h : IsBody cr lf c.body) (hcurrent : c.current cr ≠ []) (input : List α) :
    ∃ line more, c.ahead cr lf input = line :: more ∧ (c.current cr).length ≤ line.length := by
  by_cases hpending : c.pending = true
  · have hsplit : c.current cr = c.body ++ [cr] := by rw [current, if_pos hpending]
    obtain ⟨line, more, hlines⟩ : ∃ line more, lines cr lf (cr :: input) = (cr :: line) :: more := by
      rw [lines]
      split
      · exact ⟨_, _, rfl⟩
      · cases lines cr lf input with
        | nil => exact ⟨_, _, rfl⟩
        | cons line more => exact ⟨_, _, rfl⟩
    refine ⟨c.body ++ cr :: line, more, ?_, ?_⟩
    · rw [ahead, hsplit, List.append_assoc]
      exact lines_body h hlines
    · simp [hsplit]
  · have hsplit : c.current cr = c.body := by rw [current, if_neg hpending, List.append_nil]
    cases hlines : lines cr lf input with
    | nil =>
      have hinput : input = [] := by rw [← flatten_lines cr lf input, hlines, List.flatten_nil]
      refine ⟨c.current cr, [], ?_, Nat.le_refl _⟩
      rw [hinput, ahead_nil h, if_neg hcurrent]
    | cons line more =>
      refine ⟨c.body ++ line, more, ?_, ?_⟩
      · rw [ahead, hsplit]
        exact lines_body h hlines
      · simp [hsplit]

end Cursor

/-! ## The length of an event -/

/-- Some event is longer than the limit. -/
def Long (cr lf : α) (limit : ℕ) (opened : List α) (ahead : List (List α)) : Prop :=
  ∃ event ∈ eventsFrom cr lf opened ahead, limit < event.length

section

variable {limit : ℕ} {opened line : List α} {more : List (List α)}

/-- What stands of an event is in one. -/
theorem long_of_opened (h : limit < opened.length) : Long cr lf limit opened more := by
  induction more generalizing opened with
  | nil =>
    have hne : opened ≠ [] := List.ne_nil_of_length_pos (Nat.zero_lt_of_lt h)
    refine ⟨opened, ?_, h⟩
    rw [eventsFrom, if_neg hne]
    exact List.mem_singleton_self _
  | cons line more ih =>
    have hlonger : limit < (opened ++ line).length := by
      rw [List.length_append]
      omega
    rw [Long, eventsFrom]
    split
    · exact ⟨opened ++ line, List.mem_cons_self, hlonger⟩
    · exact ih hlonger

theorem long_of_line (h : limit < opened.length + line.length) :
    Long cr lf limit opened (line :: more) := by
  have hlonger : limit < (opened ++ line).length := by rwa [List.length_append]
  rw [Long, eventsFrom]
  split
  · exact ⟨opened ++ line, List.mem_cons_self, hlonger⟩
  · exact long_of_opened hlonger

/-- A line behind which the event is within the limit. -/
theorem long_cons (h : opened.length + line.length ≤ limit) :
    Long cr lf limit opened (line :: more) ↔
      Long cr lf limit (if isBlank cr lf line then [] else opened ++ line) more := by
  rw [Long, eventsFrom]
  split
  · have hshort : ¬ limit < opened.length + line.length := by omega
    simp [Long, hshort]
  · rfl

end

namespace Cursor

variable {c : Cursor α} {b : α} {limit : ℕ}

/-- The event so far gets longer than the limit at one of the symbols. -/
def Overflows (cr lf : α) (limit : ℕ) : Cursor α → List α → Prop
  | _, [] => False
  | c, b :: rest =>
    limit < (c.settle cr lf b).size cr + 1 ∨ Overflows cr lf limit (c.push cr lf b) rest

theorem settle_size (h : IsBody cr lf c.body) (b : α) :
    (c.settle cr lf b).size cr ≤ c.size cr := by
  obtain hstays | ⟨hsettles, hcurrent, -⟩ := settle_ahead h b []
  · exact Nat.le_of_eq (by rw [hstays])
  · rw [hsettles, size, size, finish_current, hcurrent, finish]
    dsimp only
    split <;> simp

theorem settle_long (h : IsBody cr lf c.body) (hsize : c.size cr ≤ limit) (b : α) (rest : List α) :
    Long cr lf limit (c.settle cr lf b).opened ((c.settle cr lf b).ahead cr lf (b :: rest)) ↔
      Long cr lf limit c.opened (c.ahead cr lf (b :: rest)) := by
  obtain hstays | ⟨hsettles, hcurrent, hahead⟩ := settle_ahead h b rest
  · rw [hstays]
  · rw [size, hcurrent] at hsize
    rw [hsettles, hahead, long_cons hsize]
    rfl

theorem add_body (h : IsBody cr lf c.body) (b : α) : IsBody cr lf (c.add cr lf b).body := by
  rw [add]
  split
  · exact isBody_nil
  · split
    · exact h
    · split
      · exact isBody_nil
      · exact h.append ‹_› ‹_›

theorem add_opened (h : (c.add cr lf b).current cr = c.current cr ++ [b]) (rest : List α) :
    c.ahead cr lf (b :: rest) = (c.add cr lf b).ahead cr lf rest := by
  rw [ahead, ahead, h, List.append_assoc]
  rfl

/-- A symbol that does not fit is in an event that does not. -/
theorem long_of_add (h : IsBody cr lf c.body) (hne : cr ≠ lf) (hpending : c.pending = true → b = lf)
    (hlong : limit < c.size cr + 1) (rest : List α) :
    Long cr lf limit c.opened (c.ahead cr lf (b :: rest)) := by
  rw [size] at hlong
  obtain ⟨-, -, hcurrent⟩ | ⟨terminator, -, hcurrent, hahead⟩ := add_ahead h hne hpending rest
  · have hsome : (c.add cr lf b).current cr ≠ [] := by simp [hcurrent]
    obtain ⟨line, more, hfirst, hlength⟩ := exists_ahead (add_body h b) hsome rest
    rw [add_opened hcurrent, hfirst]
    rw [hcurrent, List.length_append, List.length_singleton] at hlength
    exact long_of_line (by omega)
  · rw [hahead, hcurrent]
    refine long_of_line ?_
    rw [List.length_append, List.length_singleton]
    omega

/-- Behind a symbol that fits, the events are those that were ahead. -/
theorem add_long (h : IsBody cr lf c.body) (hne : cr ≠ lf) (hpending : c.pending = true → b = lf)
    (hsize : c.size cr + 1 ≤ limit) (rest : List α) :
    (c.add cr lf b).size cr ≤ limit ∧
      (Long cr lf limit (c.add cr lf b).opened ((c.add cr lf b).ahead cr lf rest) ↔
        Long cr lf limit c.opened (c.ahead cr lf (b :: rest))) := by
  rw [size] at hsize
  obtain ⟨-, hopened, hcurrent⟩ | ⟨terminator, hadd, hcurrent, hahead⟩ :=
    add_ahead h hne hpending rest
  · refine ⟨?_, ?_⟩
    · rw [size, hopened, hcurrent, List.length_append, List.length_singleton]
      omega
    · rw [hopened, add_opened hcurrent]
  · have hline : c.opened.length + (c.body ++ terminator).length ≤ limit := by
      rw [hcurrent, List.length_append, List.length_singleton]
      omega
    rw [hadd, hahead, long_cons hline]
    refine ⟨?_, Iff.rfl⟩
    rw [size, finish_current, finish]
    dsimp only
    split
    · exact Nat.zero_le _
    · rw [List.length_append, List.length_nil]
      exact hline

/-- The count passes the limit somewhere in the input exactly when an event is longer. -/
theorem overflows_iff_long (h : c.Sound cr lf) (hne : cr ≠ lf) (hsize : c.size cr ≤ limit)
    (input : List α) :
    c.Overflows cr lf limit input ↔ Long cr lf limit c.opened (c.ahead cr lf input) := by
  induction input generalizing c with
  | nil =>
    rw [Overflows, false_iff, ahead_nil h.body]
    rintro ⟨event, hevent, hlong⟩
    have hshort : event.length ≤ c.size cr := by
      rw [size]
      split at hevent
      · rw [eventsFrom] at hevent
        split at hevent
        · cases hevent
        · obtain rfl := List.mem_singleton.mp hevent
          omega
      · simp only [eventsFrom] at hevent
        split at hevent
        · obtain rfl := List.mem_singleton.mp (by simpa using hevent)
          exact Nat.le_of_eq List.length_append
        · split at hevent
          · cases hevent
          · obtain rfl := List.mem_singleton.mp hevent
            exact Nat.le_of_eq List.length_append
    omega
  | cons b rest ih =>
    have hbody := settle_body h.body b
    have hsettled := settle_size h.body b
    rw [Overflows, ← settle_long h.body hsize b rest]
    by_cases hfits : (c.settle cr lf b).size cr + 1 ≤ limit
    · obtain ⟨hadded, hlong⟩ := add_long hbody hne settle_pending hfits rest
      rw [or_iff_right (by omega), ih (h.push hne b) hadded]
      exact hlong
    · rw [or_iff_left_of_imp fun _ => by omega]
      exact iff_of_true (by omega) (long_of_add hbody hne settle_pending (by omega) rest)

/-- A count over a whole input. -/
theorem overflows_iff (hne : cr ≠ lf) (limit : ℕ) (input : List α) :
    start.Overflows cr lf limit input ↔ ∃ event ∈ events cr lf input, limit < event.length :=
  overflows_iff_long start_sound hne (Nat.zero_le _) input

end Cursor

end LineFraming
