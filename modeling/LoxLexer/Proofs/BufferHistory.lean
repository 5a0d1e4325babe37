import LoxLexer.Buffer

/-!
# What is done with a buffer

A buffer hands out characters, takes the last one back, and answers questions,
in any order and however often it refuses.  Its replies alone say what it has
handed out for good, and whether it may take the last character back: what the
cursor and the mark of the buffer say is what its log says.

    b.Mirrors text log → (b.act a).2.Mirrors text (log ++ [(b.act a).1])   (Mirrors.act)
    b.peek (n + 1) shows what the next call behind `n` calls hands out     (peek_eq_next_after)
    b.Mirrors text log → b.Disciplined text log                            (Mirrors.disciplined)
    all of this behind any history                                         (disciplined_run)
-/

namespace LoxLexer

namespace Buffer

/-! ## Actions and replies -/

/-- What the user of a buffer may do. -/
inductive Action
  | next
  | peek (distance : Int)
  | giveBack
  | atEnd
  | position
  | remaining
  | lineText (offset : Option Int)
  deriving DecidableEq, Repr

inductive Reply
  | handedOut (c : Char)
  | takenBack
  | shown (c : Char)
  | flag (holds : Bool)
  | number (n : Nat)
  | line (t : Text)
  | refused (e : BufferError)
  deriving DecidableEq, Repr

/-- What comes of an action.  A buffer that refuses stays as it is. -/
def act (b : Buffer) : Action → Reply × Buffer
  | .next =>
    match b.next with
    | .ok (c, b') => (.handedOut c, b')
    | .error e => (.refused e, b)
  | .peek n =>
    match b.peek n with
    | .ok c => (.shown c, b)
    | .error e => (.refused e, b)
  | .giveBack =>
    match b.giveBack with
    | .ok b' => (.takenBack, b')
    | .error e => (.refused e, b)
  | .atEnd => (.flag b.atEnd, b)
  | .position => (.number b.position, b)
  | .remaining => (.number b.remaining, b)
  | .lineText offset => (.line (b.lineText offset), b)

/-- The replies that a history yields, and the buffer behind it. -/
def run (b : Buffer) : List Action → List Reply × Buffer
  | [] => ([], b)
  | a :: as => ((b.act a).1 :: ((b.act a).2.run as).1, ((b.act a).2.run as).2)

/-- The buffer behind `n` calls of `next`, whether they hand something out or not. -/
def after (b : Buffer) : Nat → Buffer
  | 0 => b
  | n + 1 => ((b.after n).act .next).2

/-! ## What a log says -/

namespace Reply

/-- Whether a reply moves no character, in or out. -/
def isStill : Reply → Bool
  | handedOut _ => false
  | takenBack => false
  | _ => true

def character? : Reply → Option Char
  | handedOut c => some c
  | _ => none

/-- What is outstanding behind a reply, when `t` is before it. -/
def onto (t : Text) : Reply → Text
  | handedOut c => t ++ [c]
  | takenBack => t.dropLast
  | _ => t

end Reply

/-- The characters that were handed out and not taken back, in order. -/
def outstanding (log : List Reply) : Text := log.foldl Reply.onto []

/-- All characters that were handed out, taken back or not. -/
def handedOut (log : List Reply) : Text := log.filterMap Reply.character?

/-- Since the last character was taken back, if any was, one has been handed out. -/
def Owes (log : List Reply) : Prop :=
  ∃ earlier c later, log = earlier ++ .handedOut c :: later ∧ .takenBack ∉ later

section
variable (log : List Reply) (r : Reply)

theorem outstanding_append : outstanding (log ++ [r]) = r.onto (outstanding log) := by
  simp [outstanding]

theorem handedOut_append :
    handedOut (log ++ [r]) = handedOut log ++ r.character?.toList := by
  cases r <;> simp [handedOut, Reply.character?]

theorem not_owes_nil : ¬ Owes [] := by
  rintro ⟨earlier, c, later, h, -⟩
  simp at h

/-- The last reply decides, unless it is still. -/
theorem owes_append_iff : Owes (log ++ [r]) ↔
    (∃ c, r = .handedOut c) ∨ r ≠ .takenBack ∧ Owes log := by
  constructor
  · rintro ⟨earlier, c, later, h, hlater⟩
    rcases List.eq_nil_or_concat later with rfl | ⟨later, r', rfl⟩
    · left
      exact ⟨c, List.singleton_inj.mp (List.append_inj' h rfl).2⟩
    · right
      have hsplit : log ++ [r] = (earlier ++ .handedOut c :: later) ++ [r'] := by simpa using h
      obtain ⟨hlog, hlast⟩ := List.append_inj' hsplit rfl
      rw [List.concat_eq_append, List.mem_append, not_or] at hlater
      refine ⟨?_, earlier, c, later, hlog, hlater.1⟩
      rintro rfl
      apply hlater.2
      rw [← hlast]
      exact List.mem_singleton_self _
  · rintro (⟨c, rfl⟩ | ⟨hr, earlier, c, later, rfl, hlater⟩)
    · exact ⟨log, c, [], rfl, List.not_mem_nil⟩
    · refine ⟨earlier, c, later ++ [r], by simp, ?_⟩
      rw [List.mem_append, not_or, List.mem_singleton]
      exact ⟨hlater, Ne.symm hr⟩

variable {r} (hr : r.isStill = true)

include hr

theorem outstanding_of_isStill : outstanding (log ++ [r]) = outstanding log := by
  rw [outstanding_append]
  cases r with
  | handedOut c => cases hr
  | takenBack => cases hr
  | shown _ | flag _ | number _ | line _ | refused _ => rfl

theorem handedOut_of_isStill : handedOut (log ++ [r]) = handedOut log := by
  rw [handedOut_append]
  cases r with
  | handedOut c => cases hr
  | takenBack => cases hr
  | shown _ | flag _ | number _ | line _ | refused _ => exact List.append_nil _

theorem owes_of_isStill : Owes (log ++ [r]) ↔ Owes log := by
  have hout : ¬ ∃ c, r = .handedOut c := by
    rintro ⟨c, rfl⟩
    cases hr
  have hback : r ≠ .takenBack := by
    rintro rfl
    cases hr
  rw [owes_append_iff, or_iff_right hout, and_iff_right hback]

end

/-! ## One action -/

theorem giveBack_eq_ok_iff {b b' : Buffer} : b.giveBack = .ok b' ↔
    b.returnable = true ∧
      ∃ c seen, b.cursor.seen = c :: seen ∧ b' = ⟨⟨seen, c :: b.cursor.rest⟩, false⟩ := by
  unfold giveBack
  constructor
  · intro h
    split at h
    · next c seen hreturnable hseen =>
      cases h
      exact ⟨hreturnable, c, seen, hseen, rfl⟩
    · cases h
  · rintro ⟨hreturnable, c, seen, hseen, rfl⟩
    rw [hreturnable, hseen]

/-- **What an action can do.**  It hands out the character in front, or takes back the one behind
the cursor, or changes nothing. -/
theorem act_cases (b : Buffer) (a : Action) :
    (∃ c r, b.cursor.rest = c :: r ∧
        b.act a = (.handedOut c, ⟨b.cursor.advance [c] r, true⟩)) ∨
      (∃ c seen, b.returnable = true ∧ b.cursor.seen = c :: seen ∧
        b.act a = (.takenBack, ⟨⟨seen, c :: b.cursor.rest⟩, false⟩)) ∨
      ((b.act a).1.isStill = true ∧ (b.act a).2 = b) := by
  cases a with
  | next =>
    cases hrest : b.cursor.rest with
    | nil =>
      have hact : b.act .next = (.refused .endOfInput, b) := by
        simp only [act, next_of_nil hrest]
      right
      right
      rw [hact]
      exact ⟨rfl, rfl⟩
    | cons c r =>
      left
      simp only [act, next_of_cons hrest]
      exact ⟨c, r, rfl, rfl⟩
  | giveBack =>
    right
    cases hgive : b.giveBack with
    | error e =>
      have hact : b.act .giveBack = (.refused e, b) := by
        simp only [act, hgive]
      right
      rw [hact]
      exact ⟨rfl, rfl⟩
    | ok b' =>
      left
      obtain ⟨hreturnable, c, seen, hseen, rfl⟩ := giveBack_eq_ok_iff.mp hgive
      refine ⟨c, seen, hreturnable, hseen, ?_⟩
      simp only [act, hgive]
  | peek n =>
    right
    right
    simp only [act]
    split <;> exact ⟨rfl, rfl⟩
  | atEnd | position | remaining | lineText _ => exact Or.inr (Or.inr ⟨rfl, rfl⟩)

/-- The buffer of a text and what its log says of it. -/
structure Mirrors (b : Buffer) (text : Text) (log : List Reply) : Prop where
  text_eq : b.text = text
  outstanding_eq : outstanding log = b.cursor.seen.reverse
  returnable_iff : b.returnable = true ↔ Owes log
  /-- What may be taken back is what was handed out last. -/
  head?_seen : b.returnable = true →
    ∃ c, b.cursor.seen.head? = some c ∧ (handedOut log).getLast? = some c

theorem mirrors_ofText (text : Text) : (ofText text).Mirrors text [] where
  text_eq := rfl
  outstanding_eq := rfl
  returnable_iff := by
    simp [ofText, not_owes_nil]
  head?_seen := by
    intro h
    cases h

section
variable {b : Buffer} {text : Text} {log : List Reply}

theorem Mirrors.act (h : b.Mirrors text log) (a : Action) :
    (b.act a).2.Mirrors text (log ++ [(b.act a).1]) := by
  rcases b.act_cases a with ⟨c, r, hrest, ha⟩ | ⟨c, seen, hreturnable, hseen, ha⟩ | ⟨hstill, ha⟩
  · rw [ha]
    refine ⟨?_, ?_, ?_, ?_⟩
    · exact (Cursor.text_advance hrest).trans h.text_eq
    · rw [outstanding_append, h.outstanding_eq]
      show b.cursor.seen.reverse ++ [c] = (c :: b.cursor.seen).reverse
      rw [List.reverse_cons]
    · simp [owes_append_iff]
    · intro _
      refine ⟨c, rfl, ?_⟩
      simp [handedOut_append, Reply.character?]
  · rw [ha]
    refine ⟨?_, ?_, ?_, ?_⟩
    · rw [← h.text_eq]
      simp [Buffer.text, Cursor.text, hseen]
    · rw [outstanding_append, h.outstanding_eq, hseen]
      show (c :: seen).reverse.dropLast = seen.reverse
      rw [List.reverse_cons, List.dropLast_concat]
    · simp [owes_append_iff]
    · intro hfalse
      cases hfalse
  · rw [ha]
    refine ⟨h.text_eq, ?_, ?_, ?_⟩
    · rw [outstanding_of_isStill log hstill, h.outstanding_eq]
    · rw [owes_of_isStill log hstill]
      exact h.returnable_iff
    · rw [handedOut_of_isStill log hstill]
      exact h.head?_seen

theorem Mirrors.run (h : b.Mirrors text log) (history : List Action) :
    (b.run history).2.Mirrors text (log ++ (b.run history).1) := by
  induction history generalizing b log with
  | nil =>
    show b.Mirrors text (log ++ [])
    rwa [List.append_nil]
  | cons a as ih =>
    show ((b.act a).2.run as).2.Mirrors text (log ++ ((b.act a).1 :: ((b.act a).2.run as).1))
    have hrun := ih (h.act a)
    rwa [List.append_assoc] at hrun

end

/-! ## Looking ahead -/

section
variable (b : Buffer)

theorem rest_act_next : (b.act .next).2.cursor.rest = b.cursor.rest.drop 1 := by
  cases hrest : b.cursor.rest with
  | nil =>
    simp only [act, next_of_nil hrest]
    exact hrest
  | cons c r =>
    simp only [act, next_of_cons hrest]
    rfl

theorem rest_after (n : Nat) : (b.after n).cursor.rest = b.cursor.rest.drop n := by
  induction n with
  | zero => rfl
  | succ n ih =>
    show ((b.after n).act .next).2.cursor.rest = _
    rw [rest_act_next, ih, List.drop_drop]

/-- To look `n + 1` places ahead is to see what the last of `n + 1` calls comes to. -/
theorem peek_eq_next_after (n : Nat) : b.peek (n + 1) = (b.after n).next.map Prod.fst := by
  have hfar : ¬ ((n : Int) + 1 < 1) := by omega
  have hn : ((n : Int) + 1).toNat - 1 = n := by omega
  have hrest := b.rest_after n
  unfold peek
  rw [if_neg hfar, hn]
  cases hdrop : b.cursor.rest.drop n with
  | nil =>
    have hnone : b.cursor.rest[n]? = none := by
      rw [← List.head?_drop, hdrop]
      rfl
    rw [hdrop] at hrest
    rw [hnone, next_of_nil hrest]
    rfl
  | cons c r =>
    have hsome : b.cursor.rest[n]? = some c := by
      rw [← List.head?_drop, hdrop]
      rfl
    rw [hdrop] at hrest
    rw [hsome, next_of_cons hrest]
    rfl

/-- Only a distance that is too near is refused as one. -/
theorem peek_tooNear_iff (n : Int) : (∃ m, b.peek n = .error (.peekTooNear m)) ↔ n < 1 := by
  unfold peek
  constructor
  · rintro ⟨m, h⟩
    split at h
    · next hn => exact hn
    · split at h <;> cases h
  · intro hn
    rw [if_pos hn]
    exact ⟨n, rfl⟩

end

/-! ## Whole histories -/

/-- What a buffer owes its user, behind a history with these replies. -/
structure Disciplined (b : Buffer) (text : Text) (log : List Reply) : Prop where
  position_le : b.position ≤ text.length
  position_add_remaining : b.position + b.remaining = text.length
  atEnd_iff : b.atEnd = true ↔ b.remaining = 0
  outstanding_eq : outstanding log = text.take b.position
  peek_eq : ∀ n : Nat, b.peek (n + 1) = (b.after n).next.map Prod.fst
  peek_tooNear : ∀ n : Int, (∃ m, b.peek n = .error (.peekTooNear m)) ↔ n < 1
  giveBack_iff : (∃ b', b.giveBack = .ok b') ↔ Owes log
  /-- What is given back is handed out again. -/
  next_giveBack : ∀ b', b.giveBack = .ok b' →
    ∃ c, (handedOut log).getLast? = some c ∧ b'.next = .ok (c, b)
  /-- An action that is refused, and one that only asks, changes nothing. -/
  act_still : ∀ a, (∀ c, (b.act a).1 ≠ .handedOut c) → (b.act a).1 ≠ .takenBack → (b.act a).2 = b

theorem Mirrors.disciplined {b : Buffer} {text : Text} {log : List Reply}
    (h : b.Mirrors text log) : b.Disciplined text log := by
  have hsum : b.position + b.remaining = text.length := by
    rw [← h.text_eq]
    exact b.cursor.position_add_remaining
  have hgive : (∃ b', b.giveBack = .ok b') ↔ Owes log := by
    rw [← h.returnable_iff]
    constructor
    · rintro ⟨b', hb'⟩
      exact (giveBack_eq_ok_iff.mp hb').1
    · intro hreturnable
      obtain ⟨c, hhead, -⟩ := h.head?_seen hreturnable
      obtain ⟨seen, hseen⟩ := List.head?_eq_some_iff.mp hhead
      exact ⟨_, giveBack_eq_ok_iff.mpr ⟨hreturnable, c, seen, hseen, rfl⟩⟩
  refine ⟨by omega, hsum, ?_, ?_, b.peek_eq_next_after, b.peek_tooNear_iff, hgive, ?_, ?_⟩
  · unfold atEnd Cursor.atEnd remaining Cursor.remaining
    rw [List.isEmpty_iff, List.length_eq_zero_iff]
  · rw [h.outstanding_eq, ← h.text_eq]
    simp [Buffer.text, Cursor.text, position, Cursor.position]
  · intro b' hb'
    obtain ⟨hreturnable, c, seen, hseen, rfl⟩ := giveBack_eq_ok_iff.mp hb'
    obtain ⟨d, hhead, hlast⟩ := h.head?_seen hreturnable
    have hcd : c = d := by
      rw [hseen] at hhead
      exact Option.some.inj hhead
    refine ⟨c, hcd ▸ hlast, ?_⟩
    have hbehind : b = ⟨⟨c :: seen, b.cursor.rest⟩, true⟩ := by
      rw [← hseen, ← hreturnable]
    rw [next_of_cons rfl, hbehind]
    rfl
  · intro a hout hback
    rcases b.act_cases a with ⟨c, r, -, ha⟩ | ⟨c, seen, -, -, ha⟩ | ⟨-, ha⟩
    · exact absurd (congrArg Prod.fst ha) (hout c)
    · exact absurd (congrArg Prod.fst ha) hback
    · exact ha

/-- **The discipline of a buffer.**  Whatever was done with it, in any order, its place is where the
characters end that are out, and it takes back one character, the last one, when one went out since
it took one back. -/
theorem disciplined_run (text : Text) (history : List Action) :
    ((ofText text).run history).2.Disciplined text ((ofText text).run history).1 :=
  ((mirrors_ofText text).run history).disciplined

/-- A character is taken back from behind the end, too, and only once. -/
example : ((ofText ['a']).run [.next, .next, .giveBack, .giveBack, .peek 1, .next]).1 =
    [.handedOut 'a', .refused .endOfInput, .takenBack, .refused .nothingToReturn, .shown 'a',
      .handedOut 'a'] := by decide

end Buffer

end LoxLexer
