import LoxLexer.Cursor

/-!
# Buffers

A buffer is a cursor that hands out characters one by one and takes the last one
back, once.

    b.next = .ok (c, b') → b'.giveBack = .ok (b.withReturn false)          (giveBack_of_next)
    b.cursor.rest.head? ≠ some c → b.accept c leaves the cursor alone      (accept_of_head?_ne)
-/

namespace LoxLexer

structure Buffer where
  cursor : Cursor
  /-- Whether the last character handed out may be given back. -/
  returnable : Bool
  deriving DecidableEq, Repr

inductive BufferError
  | endOfInput
  | peekTooNear (distance : Int)
  | nothingToReturn
  deriving DecidableEq, Repr

def BufferError.message : BufferError → Text
  | endOfInput => []
  | peekTooNear n => "peek distance must be at least 1, got ".toList ++ Text.ofInt n
  | nothingToReturn => "no consumed character to push back".toList

namespace Buffer

/-! ## Algorithm -/

def ofText (t : Text) : Buffer := ⟨.ofText t, false⟩

def text (b : Buffer) : Text := b.cursor.text

def position (b : Buffer) : Nat := b.cursor.position

def remaining (b : Buffer) : Nat := b.cursor.remaining

def atEnd (b : Buffer) : Bool := b.cursor.atEnd

/-- The next character, handed out. -/
def next (b : Buffer) : Except BufferError (Char × Buffer) :=
  match b.cursor.rest with
  | [] => .error .endOfInput
  | c :: rest => .ok (c, ⟨⟨c :: b.cursor.seen, rest⟩, true⟩)

/-- The character `n` places ahead; the next one is one place ahead. -/
def peek (b : Buffer) (n : Int) : Except BufferError Char :=
  if n < 1 then .error (.peekTooNear n)
  else
    match b.cursor.rest[n.toNat - 1]? with
    | none => .error .endOfInput
    | some c => .ok c

/-- The character handed out last goes back to the front. -/
def giveBack (b : Buffer) : Except BufferError Buffer :=
  match b.returnable, b.cursor.seen with
  | true, c :: seen => .ok ⟨⟨seen, c :: b.cursor.rest⟩, false⟩
  | _, _ => .error .nothingToReturn

/-- The character `n` places ahead, if the text goes so far. -/
def glance (b : Buffer) (n : Int) : Except BufferError (Option Char) :=
  match b.peek n with
  | .ok c => .ok (some c)
  | .error .endOfInput => .ok none
  | .error e => .error e

/-- Whether the next character is `c`.  It is handed out if it is, and given back if it is not. -/
def accept (b : Buffer) (c : Char) : Except BufferError (Bool × Buffer) :=
  match b.next with
  | .ok (d, b') => if d = c then .ok (true, b') else b'.giveBack.map fun b => (false, b)
  | .error .endOfInput => .ok (false, b)
  | .error e => .error e

def withReturn (b : Buffer) (returnable : Bool) : Buffer := { b with returnable }

/-- The line at an offset, or at the cursor. -/
def lineText (b : Buffer) (offset : Option Int) : Text :=
  Cursor.lineTextAt b.text (offset.getD b.position)

/-! ## Lemmas -/

/-- Giving back undoes handing out. -/
theorem giveBack_of_next {b b' : Buffer} {c : Char} (h : b.next = .ok (c, b')) :
    b'.giveBack = .ok (b.withReturn false) := by
  unfold next at h
  split at h
  · cases h
  · next c rest hr =>
    cases h
    simp [giveBack, withReturn, ← hr]

theorem text_of_next {b b' : Buffer} {c : Char} (h : b.next = .ok (c, b')) : b'.text = b.text := by
  unfold next at h
  split at h
  · cases h
  · next c rest hr =>
    cases h
    simp [text, Cursor.text, hr]

theorem next_of_cons {b : Buffer} {c : Char} {r : Text} (h : b.cursor.rest = c :: r) :
    b.next = .ok (c, ⟨b.cursor.advance [c] r, true⟩) := by
  rw [next, h]
  rfl

theorem next_of_nil {b : Buffer} (h : b.cursor.rest = []) : b.next = .error .endOfInput := by
  rw [next, h]

/-- Handing out takes a character off what remains. -/
theorem remaining_of_next {b b' : Buffer} {c : Char} (h : b.next = .ok (c, b')) :
    b'.remaining < b.remaining := by
  unfold next at h
  split at h
  · cases h
  · next c rest hr =>
    cases h
    simp [remaining, Cursor.remaining, hr]

/-- Looking ahead never complains. -/
theorem glance_succ (b : Buffer) (n : Nat) : b.glance (n + 1) = .ok b.cursor.rest[n]? := by
  have hlt : ¬ ((n : Int) + 1 < 1) := by omega
  have hn : ((n : Int) + 1).toNat - 1 = n := by omega
  rw [glance, peek, if_neg hlt, hn]
  cases b.cursor.rest[n]? <;> rfl

theorem glance_one (b : Buffer) : b.glance 1 = .ok b.cursor.rest.head? := by
  rw [List.head?_eq_getElem?]
  exact b.glance_succ 0

theorem accept_of_head?_eq {b : Buffer} {c : Char} {r : Text} (h : b.cursor.rest = c :: r) :
    b.accept c = .ok (true, ⟨b.cursor.advance [c] r, true⟩) := by
  rw [accept, next_of_cons h]
  exact if_pos rfl

/-- A character that does not fit stays where it is. -/
theorem accept_of_head?_ne {b : Buffer} {c : Char} (h : b.cursor.rest.head? ≠ some c) :
    ∃ returnable, b.accept c = .ok (false, b.withReturn returnable) := by
  cases hr : b.cursor.rest with
  | nil => exact ⟨b.returnable, by rw [accept, next_of_nil hr]; rfl⟩
  | cons d r =>
    have hd : d ≠ c := fun hd => h (by rw [hr, hd]; rfl)
    have hnext := next_of_cons hr
    refine ⟨false, ?_⟩
    rw [accept, hnext]
    show (if d = c then _ else _) = _
    rw [if_neg hd, giveBack_of_next hnext]
    rfl

theorem remaining_of_accept {b b' : Buffer} {c : Char} {found : Bool}
    (h : b.accept c = .ok (found, b')) : b'.remaining ≤ b.remaining := by
  by_cases hc : b.cursor.rest.head? = some c
  · obtain ⟨r, hr⟩ := List.head?_eq_some_iff.mp hc
    rw [accept_of_head?_eq hr] at h
    cases h
    simp [remaining, Cursor.remaining, Cursor.advance, hr]
  · obtain ⟨k, hk⟩ := accept_of_head?_ne hc
    rw [hk] at h
    cases h
    exact Nat.le_refl _

end Buffer

end LoxLexer
