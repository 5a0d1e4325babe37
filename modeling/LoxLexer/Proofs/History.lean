import Mathlib.Data.List.TakeWhile
import Mathlib.Data.Nat.Find
import LoxLexer.Proofs.Reading

/-!
# Calls and histories

What one call of `next` can do, and what stays true of a lexer whatever has
been done with it: it is `Placed`, which is to say that it still has its whole
text and that its line is the first line plus the line feeds behind it.

    a call yields the end token, a spelt token or an explained error   (next_cases)
    l.cursor.rest = l.spaces ++ (l.taken ++ l.next.2.cursor.rest)      (rest_eq_next)
    (start source first logical text).Placed first text                (placed_start)
    l.Placed first text → (l.run actions).2.Placed first text          (Placed.run)
    l.Placed first text → l.line = first + LFs before the cursor       (Placed.line_eq_take)
    (l.after n).front = [] for some n ≤ l.cursor.rest.length           (exists_front_nil)
    l.events.1 = (List.range (n + 1)).map l.event for the first such n (events_eq_map_event)
-/

namespace LoxLexer

namespace Lexer

/-! ## Calls and histories -/

/-- What the user of a lexer may do. -/
inductive Action
  | next
  | setLogical (logical : Bool)
  deriving DecidableEq, Repr

def act (l : Lexer) : Action → List Event × Lexer
  | .next => ([l.next.1], l.next.2)
  | .setLogical logical => ([], { l with logical })

/-- The events that a history yields, and the lexer behind it. -/
def run (l : Lexer) : List Action → List Event × Lexer
  | [] => ([], l)
  | a :: as => ((l.act a).1 ++ ((l.act a).2.run as).1, ((l.act a).2.run as).2)

/-- The lexer behind `n` calls. -/
def after (l : Lexer) : Nat → Lexer
  | 0 => l
  | n + 1 => (l.after n).next.2

/-- Event number `n`, counted from zero. -/
def event (l : Lexer) (n : Nat) : Event := (l.after n).next.1

/-- The place in the text behind `n` calls. -/
def place (l : Lexer) (n : Nat) : Nat := (l.after n).cursor.position

/-- The spaces in front of the next event. -/
def spaces (l : Lexer) : Text := l.cursor.rest.takeWhile isSpace

/-- What is behind these spaces. -/
def front (l : Lexer) : Text := l.cursor.rest.dropWhile isSpace

/-- What the next event takes of the front. -/
def taken (l : Lexer) : Text :=
  match l.front with
  | [] => []
  | c :: r => (Lexed.read l.logical c r).taken

/-! ## One call -/

theorem spaces_append_front (l : Lexer) : l.spaces ++ l.front = l.cursor.rest :=
  List.takeWhile_append_dropWhile

theorem isSpace_of_mem_spaces {l : Lexer} : ∀ c ∈ l.spaces, isSpace c = true :=
  List.all_eq_true.mp List.all_takeWhile

theorem front_of_spaces {l : Lexer} {space r : Text} {c : Char}
    (h : l.cursor.rest = space ++ c :: r) (hspace : ∀ c ∈ space, isSpace c = true)
    (hc : isSpace c = false) : l.front = c :: r := by
  rw [front, h, List.dropWhile_append_of_pos hspace]
  exact List.dropWhile_cons_of_neg (by simp [hc])

theorem isSpace_of_front_cons {l : Lexer} {c : Char} {r : Text} (h : l.front = c :: r) :
    isSpace c = false := by
  have hhead := List.head?_dropWhile_not isSpace l.cursor.rest
  rw [show l.cursor.rest.dropWhile isSpace = c :: r from h] at hhead
  simpa using hhead

theorem front_eq_nil_iff {l : Lexer} : l.front = [] ↔ ∀ c ∈ l.cursor.rest, isSpace c = true :=
  List.dropWhile_eq_nil_iff

theorem next_of_front_nil {l : Lexer} (h : l.front = []) :
    l.step? = none ∧ l.next = (.token l.finish.endToken, l.finish) := by
  have hs : l.step? = none := by
    unfold step?
    rw [show l.skipSpace.cursor.rest = [] from h]
  exact ⟨hs, by rw [next, hs]⟩

theorem next_of_front_cons {l : Lexer} {c : Char} {r : Text} (h : l.front = c :: r) :
    l.step? = some (l.next.1, l.next.2) ∧
      l.next.1 = l.skipSpace.eventOf (Lexed.read l.logical c r) ∧
      l.next.2 = l.skipSpace.advance (Lexed.read l.logical c r).taken
        (Lexed.read l.logical c r).rest := by
  have hs : l.step? = some (l.skipSpace.eventOf (Lexed.read l.logical c r),
      l.skipSpace.advance (Lexed.read l.logical c r).taken (Lexed.read l.logical c r).rest) := by
    unfold step?
    rw [show l.skipSpace.cursor.rest = c :: r from h]
  have hn : l.next = (l.skipSpace.eventOf (Lexed.read l.logical c r),
      l.skipSpace.advance (Lexed.read l.logical c r).taken (Lexed.read l.logical c r).rest) := by
    rw [next, hs]
  rw [hn]
  exact ⟨hs, rfl, rfl⟩

theorem taken_of_front_cons {l : Lexer} {c : Char} {r : Text} (h : l.front = c :: r) :
    l.taken = (Lexed.read l.logical c r).taken := by
  rw [taken, h]

/-- A string that runs out is reported behind what it takes, every other fault in front of it. -/
theorem eventOf_fault (l : Lexer) (cause : Cause) (w s : Text) :
    l.eventOf ⟨.fault cause, w, s⟩ =
      (if cause = .unterminatedString then l.advance w s else l).errorHere cause := by
  cases cause <;> rfl

/-- Only what is read as a token yields a token. -/
theorem read_of_token {l : Lexer} {c : Char} {r : Text} {t : Token} (h : l.front = c :: r)
    (ht : l.next.1 = .token t) :
    Lexed.read l.logical c r = ⟨.token t.kind t.lexeme, l.taken, l.next.2.cursor.rest⟩ ∧
      t.line = l.skipSpace.line := by
  obtain ⟨-, hevent, hnext⟩ := next_of_front_cons h
  rw [hnext, taken_of_front_cons h]
  rw [hevent] at ht
  generalize Lexed.read l.logical c r = x at ht ⊢
  obtain ⟨item, w, s⟩ := x
  cases item with
  | token k lexeme =>
    cases ht
    exact ⟨rfl, rfl⟩
  | fault cause => cases cause <;> cases ht

theorem step?_of_front_ne_nil {l : Lexer} (h : l.front ≠ []) :
    l.step? = some (l.next.1, l.next.2) := by
  cases hf : l.front with
  | nil => exact absurd hf h
  | cons c r => exact (next_of_front_cons hf).1

theorem advance_nil {l : Lexer} {s : Text} (hr : l.cursor.rest = s) : l.advance [] s = l := by
  subst hr
  simp [advance, Cursor.advance]

theorem skipSpace_of_front_eq {l : Lexer} (h : l.front = l.cursor.rest) : l.skipSpace = l := by
  have hspaces : l.spaces = [] := by
    have hrest := l.spaces_append_front
    rw [h] at hrest
    simpa using hrest
  show l.advance l.spaces l.front = l
  rw [hspaces]
  exact advance_nil h.symm

theorem finish_of_nil {l : Lexer} (hr : l.cursor.rest = []) :
    l.finish = { l with finished := true } := by
  have hfront : l.front = l.cursor.rest := by
    rw [hr]
    exact front_eq_nil_iff.mpr (by simp [hr])
  rw [finish, skipSpace_of_front_eq hfront]

theorem advance_advance (l : Lexer) (u v s s' : Text) :
    (l.advance u s').advance v s = l.advance (u ++ v) s := by
  simp [advance, Cursor.advance, Int.add_assoc]

section
variable {l : Lexer} {u s : Text} (hr : l.cursor.rest = u ++ s) (hu : ∀ c ∈ u, isSpace c = true)

include hr hu

/-- A lexer that has passed some of the spaces has the others still to pass. -/
theorem skipSpace_advance : (l.advance u s).skipSpace = l.skipSpace := by
  show (l.advance u s).advance (s.takeWhile isSpace) (s.dropWhile isSpace) = l.skipSpace
  rw [advance_advance, skipSpace, hr, List.takeWhile_append_of_pos hu,
    List.dropWhile_append_of_pos hu]

theorem front_advance : (l.advance u s).front = l.front :=
  congrArg (·.cursor.rest) (skipSpace_advance hr hu)

theorem step?_advance : (l.advance u s).step? = l.step? := by
  unfold step?
  rw [skipSpace_advance hr hu]
  rfl

theorem finish_advance : (l.advance u s).finish = l.finish := by
  rw [finish, skipSpace_advance hr hu, finish]

/-- Spaces that are passed before a call do not change it. -/
theorem next_advance : (l.advance u s).next = l.next := by
  rw [next, step?_advance hr hu, finish_advance hr hu, next]

end

theorem skipSpace_of_spaces {l : Lexer} {space r : Text} {c : Char}
    (h : l.cursor.rest = space ++ c :: r) (hspace : ∀ c ∈ space, isSpace c = true)
    (hc : isSpace c = false) : l.skipSpace = l.advance space (c :: r) := by
  have hspaces : l.spaces = space := by
    rw [spaces, h, List.takeWhile_append_of_pos hspace,
      List.takeWhile_cons_of_neg (by simp [hc]), List.append_nil]
  show l.advance l.spaces l.front = _
  rw [hspaces, front_of_spaces h hspace hc]

/-- A call behind spaces yields what is read at their end, and goes on behind it. -/
theorem next_of_read {l : Lexer} {space r : Text} {c : Char} {x : Lexed}
    (h : l.cursor.rest = space ++ c :: r) (hspace : ∀ c ∈ space, isSpace c = true)
    (hc : isSpace c = false) (hx : Lexed.read l.logical c r = x) :
    l.front ≠ [] ∧ l.next.1 = (l.advance space (c :: r)).eventOf x ∧
      l.next.2 = l.advance (space ++ x.taken) x.rest := by
  have hfront := front_of_spaces h hspace hc
  obtain ⟨-, hevent, hnext⟩ := next_of_front_cons hfront
  rw [skipSpace_of_spaces h hspace hc, hx] at hevent hnext
  rw [advance_advance] at hnext
  exact ⟨by simp [hfront], hevent, hnext⟩

/-- A call moves the lexer behind the spaces and the event's text, and does nothing else. -/
theorem next_eq_advance (l : Lexer) :
    ∃ finished, l.next.2 =
      { l.advance (l.spaces ++ l.taken) l.next.2.cursor.rest with finished } := by
  cases h : l.front with
  | nil =>
    refine ⟨true, ?_⟩
    rw [(next_of_front_nil h).2, taken, h, List.append_nil]
    rfl
  | cons c r =>
    refine ⟨l.finished, ?_⟩
    rw [(next_of_front_cons h).2.2, taken, h, ← advance_advance l _ _ _ l.front]
    rfl

theorem line_next (l : Lexer) :
    l.next.2.line = l.line + ((l.spaces ++ l.taken).count '\n' : Nat) := by
  obtain ⟨f, hf⟩ := l.next_eq_advance
  rw [hf]
  rfl

theorem front_eq_next (l : Lexer) : l.front = l.taken ++ l.next.2.cursor.rest := by
  cases h : l.front with
  | nil =>
    rw [(next_of_front_nil h).2, taken, h]
    exact h.symm
  | cons c r =>
    rw [(next_of_front_cons h).2.2, taken, h]
    exact (Lexed.taken_append_rest l.logical c r).symm

/-- What a call takes and what it leaves are the rest of the text. -/
theorem rest_eq_next (l : Lexer) :
    l.cursor.rest = l.spaces ++ (l.taken ++ l.next.2.cursor.rest) := by
  rw [← front_eq_next, spaces_append_front]

theorem seen_next (l : Lexer) :
    l.next.2.cursor.seen = (l.spaces ++ l.taken).reverse ++ l.cursor.seen := by
  obtain ⟨f, hf⟩ := l.next_eq_advance
  rw [hf]
  rfl

theorem position_next (l : Lexer) :
    l.next.2.cursor.position = l.cursor.position + l.spaces.length + l.taken.length := by
  simp only [Cursor.position, seen_next, List.length_append, List.length_reverse]
  omega

theorem logical_next (l : Lexer) : l.next.2.logical = l.logical := by
  obtain ⟨f, hf⟩ := l.next_eq_advance
  rw [hf]
  rfl

theorem source_next (l : Lexer) : l.next.2.source = l.source := by
  obtain ⟨f, hf⟩ := l.next_eq_advance
  rw [hf]
  rfl

/-- **What a call can do.**  It yields the end token, a token that is spelt as what it takes, or an
error that explains why nothing is spelt there.  A string that runs out is reported behind what it
takes, everything else in front of it. -/
theorem next_cases (l : Lexer) :
    (l.front = [] ∧ l.next = (.token l.finish.endToken, l.finish)) ∨
      (l.front ≠ [] ∧
        ((∃ k x, l.next.1 = .token ⟨k, x, l.skipSpace.line⟩ ∧
          Spelling l.logical (l.next.2.cursor.rest = []) k x l.taken) ∨
        (∃ cause, l.next.1 =
            (if cause = .unterminatedString then l.next.2 else l.skipSpace).errorHere cause ∧
          Refusal l.logical cause l.taken l.next.2.cursor.rest))) := by
  cases hf : l.front with
  | nil => exact Or.inl ⟨rfl, (next_of_front_nil hf).2⟩
  | cons c r =>
    refine Or.inr ⟨List.cons_ne_nil c r, ?_⟩
    obtain ⟨-, hevent, hnext⟩ := next_of_front_cons hf
    have hx := Lexed.read_explained l.logical c r
    have htaken : l.taken = (Lexed.read l.logical c r).taken := by rw [taken, hf]
    rw [hevent, hnext, htaken]
    generalize Lexed.read l.logical c r = x at hx ⊢
    obtain ⟨item, w, s⟩ := x
    cases item with
    | token k lexeme => exact Or.inl ⟨k, lexeme, rfl, hx⟩
    | fault cause => exact Or.inr ⟨cause, eventOf_fault .., hx⟩

theorem finished_next {l : Lexer} (h : l.front ≠ []) : l.next.2.finished = l.finished := by
  obtain ⟨c, r, hcr⟩ := List.exists_cons_of_ne_nil h
  rw [(next_of_front_cons hcr).2.2]
  rfl

theorem length_next_lt {l : Lexer} (h : l.front ≠ []) :
    l.next.2.cursor.rest.length < l.cursor.rest.length := step?_rest_lt (step?_of_front_ne_nil h)

/-- What holds of a lexer when it holds of the one behind the next event, holds of all. -/
theorem induction_on_next {motive : Lexer → Prop}
    (h : ∀ l, (l.front ≠ [] → motive l.next.2) → motive l) (l : Lexer) : motive l := by
  induction hn : l.cursor.rest.length using Nat.strongRecOn generalizing l with
  | _ n ih =>
    subst hn
    exact h l fun hf => ih _ (length_next_lt hf) l.next.2 rfl

theorem length_after_add_le {l : Lexer} {n : Nat} (h : ∀ k < n, (l.after k).front ≠ []) :
    (l.after n).cursor.rest.length + n ≤ l.cursor.rest.length := by
  induction n with
  | zero => exact Nat.le_refl _
  | succ n ih =>
    have hlt := length_next_lt (h n (Nat.lt_succ_self n))
    have hle := ih fun k hk => h k (Nat.lt_succ_of_lt hk)
    simp only [after]
    omega

/-- The calls come to the end of the text: there is a first one that meets only spaces. -/
theorem exists_front_nil (l : Lexer) :
    ∃ n, n ≤ l.cursor.rest.length ∧ (l.after n).front = [] ∧ ∀ k < n, (l.after k).front ≠ [] := by
  have hex : ∃ n, (l.after n).front = [] := by
    apply Classical.byContradiction
    intro hnot
    have := length_after_add_le (l := l) (n := l.cursor.rest.length + 1) fun k _ hk => hnot ⟨k, hk⟩
    omega
  have hmin : ∀ k < Nat.find hex, (l.after k).front ≠ [] := fun k hk => Nat.find_min hex hk
  have := length_after_add_le hmin
  exact ⟨Nat.find hex, by omega, Nat.find_spec hex, hmin⟩

/-- The calls before the `n + 1`-st are the first and the `n` calls behind it. -/
theorem after_succ (l : Lexer) (n : Nat) : l.after (n + 1) = l.next.2.after n := by
  induction n with
  | zero => rfl
  | succ n ih => exact congrArg (fun m => m.next.2) ih

/-- A run past all errors is made of the calls up to the first one that meets only spaces. -/
theorem events_eq_map_event {l : Lexer} {n : Nat} (hn : (l.after n).front = [])
    (hmin : ∀ k < n, (l.after k).front ≠ []) : l.events.1 = (List.range (n + 1)).map l.event := by
  induction n generalizing l with
  | zero =>
    obtain ⟨hstep, hnext⟩ : l.step? = none ∧ l.next = _ := next_of_front_nil hn
    rw [events_of_none hstep]
    show _ = [l.next.1]
    rw [hnext]
  | succ n ih =>
    have hfront : l.front ≠ [] := hmin 0 (Nat.succ_pos n)
    have hrest : l.next.2.events.1 = (List.range (n + 1)).map l.next.2.event := by
      refine ih (by rwa [← after_succ]) fun k hk => ?_
      rw [← after_succ]
      exact hmin (k + 1) (Nat.succ_lt_succ hk)
    have hevent : ∀ k, l.next.2.event k = l.event (k + 1) := fun k => by
      rw [event, event, after_succ]
    rw [events_of_some (step?_of_front_ne_nil hfront), hrest,
      List.range_succ_eq_map (n := n + 1), List.map_cons, List.map_map]
    exact congrArg (l.next.1 :: ·) (List.map_congr_left fun k _ => hevent k)

theorem run_append (l : Lexer) (as bs : List Action) :
    l.run (as ++ bs) =
      ((l.run as).1 ++ ((l.run as).2.run bs).1, ((l.run as).2.run bs).2) := by
  induction as generalizing l with
  | nil => rfl
  | cons a as ih => simp [run, ih]

theorem source_run (l : Lexer) (history : List Action) : (l.run history).2.source = l.source := by
  induction history generalizing l with
  | nil => rfl
  | cons a as ih =>
    have hact : (l.act a).2.source = l.source := by
      cases a with
      | next => exact l.source_next
      | setLogical logical => rfl
    exact (ih _).trans hact

/-! ## What every history keeps -/

/-- A lexer of a text whose first line has the number `first`. -/
structure Placed (l : Lexer) (first : Int) (text : Text) : Prop where
  text_eq : l.cursor.text = text
  line_eq : l.line = first + (l.cursor.seen.count '\n' : Nat)

theorem placed_start (source : Text) (first : Int) (logical : Bool) (text : Text) :
    (start source first logical text).Placed first text := by
  refine ⟨rfl, ?_⟩
  show first = first + (List.count '\n' [] : Nat)
  simp

section
variable {l : Lexer} {first : Int} {text : Text}

theorem Placed.advance (h : l.Placed first text) {u s : Text} (hr : l.cursor.rest = u ++ s) :
    (l.advance u s).Placed first text := by
  refine ⟨(Cursor.text_advance hr).trans h.text_eq, ?_⟩
  simp only [Lexer.advance, Cursor.advance, List.count_append, List.count_reverse, h.line_eq]
  omega

theorem Placed.skipSpace (h : l.Placed first text) : l.skipSpace.Placed first text :=
  h.advance l.spaces_append_front.symm

theorem Placed.next (h : l.Placed first text) : l.next.2.Placed first text := by
  obtain ⟨f, hf⟩ := l.next_eq_advance
  have hr := l.rest_eq_next
  rw [← List.append_assoc] at hr
  rw [hf]
  exact ⟨(h.advance hr).text_eq, (h.advance hr).line_eq⟩

theorem Placed.act (h : l.Placed first text) (a : Action) : (l.act a).2.Placed first text := by
  cases a with
  | next => exact h.next
  | setLogical logical => exact ⟨h.text_eq, h.line_eq⟩

theorem Placed.run (h : l.Placed first text) (history : List Action) :
    (l.run history).2.Placed first text := by
  induction history generalizing l with
  | nil => exact h
  | cons a as ih => exact ih (h.act a)

theorem Placed.after (h : l.Placed first text) (n : Nat) : (l.after n).Placed first text := by
  induction n with
  | zero => exact h
  | succ n ih => exact ih.next

theorem Placed.take_position (h : l.Placed first text) :
    text.take l.cursor.position = l.cursor.seen.reverse := by
  rw [← h.text_eq, Cursor.text, Cursor.position]
  simp

theorem Placed.drop_position (h : l.Placed first text) :
    text.drop l.cursor.position = l.cursor.rest := by
  rw [← h.text_eq, Cursor.text, Cursor.position]
  simp

theorem Placed.line_eq_take (h : l.Placed first text) :
    l.line = first + ((text.take l.cursor.position).count '\n' : Nat) := by
  rw [h.line_eq, h.take_position, List.count_reverse]

theorem Placed.rest_eq_nil_iff (h : l.Placed first text) :
    l.cursor.rest = [] ↔ l.cursor.position = text.length := by
  have := l.cursor.position_add_remaining
  rw [h.text_eq, Cursor.remaining] at this
  rw [← List.length_eq_zero_iff]
  omega

theorem Placed.takeWhile_drop (h : l.Placed first text) :
    (text.drop l.cursor.position).takeWhile isSpace = l.spaces := by
  rw [h.drop_position]
  rfl

theorem Placed.dropWhile_drop (h : l.Placed first text) :
    (text.drop l.cursor.position).dropWhile isSpace = l.front := by
  rw [h.drop_position]
  rfl

/-- What lies between the places before and after a call. -/
theorem Placed.slice_next (h : l.Placed first text) :
    (text.take l.next.2.cursor.position).drop l.cursor.position = l.spaces ++ l.taken := by
  rw [h.next.take_position, seen_next, List.reverse_append, List.reverse_reverse]
  simp [Cursor.position]

end

end Lexer

end LoxLexer
