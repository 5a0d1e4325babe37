import LoxLexer.Proofs.SourceLines

/-!
# The layout of diagnostics

A diagnostic of the lexer is shown on two lines, or on three if it has a hint,
whatever the text is.  Its parts are lines themselves: a word has no line feed,
a single character that starts no token is no space, the character behind an
operator is quoted, and a source line ends in front of a line feed.  So the parts
can be read back from what is shown.

    the message of a refusal is one line         (Refusal.lineFeed_not_mem_message)
    one-line parts are shown line by line        (OfLines.lines_render)
    and can be read back                         (OfLines.readBack_render)
    all of this for the errors of all calls      (shown_diagnostic_reads_back)
-/

namespace LoxLexer

/-! ## Shown diagnostics -/

/-- What the first line shows in front of the message. -/
def Location.heading (l : Location) : Text := l.render ++ ": error: ".toList

namespace Diagnostic

/-- The message, the source line and the hint of a diagnostic, from what is shown of it. -/
def readBack (location : Location) (shown : Text) : Option (Text × Text × Option Text) :=
  match shown.lines with
  | [first, second] =>
    some (first.drop location.heading.length, second.drop "    ".toList.length, none)
  | [first, second, third] =>
    some (first.drop location.heading.length, second.drop "    ".toList.length,
      some (third.drop "hint: ".toList.length))
  | _ => none

/-- A diagnostic with a place and a source line, each part of which is one line. -/
structure OfLines (location : Location) (line : Text) (d : Diagnostic) : Prop where
  location_eq : d.location = some location
  sourceLine_eq : d.sourceLine = some line
  message_isLine : '\n' ∉ d.message
  line_isLine : '\n' ∉ line
  hint_isLine : ∀ h, d.hint = some h → h ≠ [] ∧ '\n' ∉ h

end Diagnostic

theorem Location.lineFeed_not_mem_heading {l : Location} (h : '\n' ∉ l.source) :
    '\n' ∉ l.heading := by
  have hmarks : '\n' ∉ ":".toList ∧ '\n' ∉ ": error: ".toList := by decide
  have hplace : '\n' ∉ l.source ++ ":".toList := List.not_mem_append h hmarks.1
  have hrender : '\n' ∉ l.render :=
    List.not_mem_append hplace (Text.not_mem_ofInt (by decide) (by decide) l.line)
  exact List.not_mem_append hrender hmarks.2

namespace Diagnostic

section
variable {location : Location} {line : Text} {d : Diagnostic}

/-- One line for the message, one for the source line and one for the hint, if there is one. -/
theorem OfLines.renderedLines_eq (h : d.OfLines location line) :
    d.renderedLines =
      (location.heading ++ d.message) :: ("    ".toList ++ line) ::
        (d.hint.map ("hint: ".toList ++ ·)).toList := by
  have hfirst : location.render ++ ": ".toList ++ ("error: ".toList ++ d.message) =
      location.heading ++ d.message := by
    have hmark : ": error: ".toList = ": ".toList ++ "error: ".toList := rfl
    rw [Location.heading, hmark]
    simp only [List.append_assoc]
  unfold renderedLines
  rw [h.location_eq, h.sourceLine_eq]
  cases hhint : d.hint with
  | none =>
    show [_, _] = _
    rw [hfirst]
    rfl
  | some hint =>
    obtain ⟨hne, -⟩ := h.hint_isLine hint hhint
    cases hint with
    | nil => exact absurd rfl hne
    | cons c rest =>
      show [_, _] ++ [_] = _
      rw [hfirst]
      rfl

/-- **The layout is kept**: the lines that are shown are those that were written. -/
theorem OfLines.lines_render (h : d.OfLines location line) (hsource : '\n' ∉ location.source) :
    d.render.lines =
      (location.heading ++ d.message) :: ("    ".toList ++ line) ::
        (d.hint.map ("hint: ".toList ++ ·)).toList := by
  have hlines : ∀ x ∈ d.renderedLines, '\n' ∉ x := by
    rw [h.renderedLines_eq]
    intro x hx
    rw [List.mem_cons, List.mem_cons] at hx
    rcases hx with rfl | rfl | hx
    · exact List.not_mem_append (Location.lineFeed_not_mem_heading hsource) h.message_isLine
    · exact List.not_mem_append (by decide) h.line_isLine
    · rw [Option.mem_toList, Option.map_eq_some_iff] at hx
      obtain ⟨hint, hhint, rfl⟩ := hx
      exact List.not_mem_append (by decide) (h.hint_isLine hint hhint).2
  have hne : d.renderedLines ≠ [] := by
    rw [h.renderedLines_eq]
    exact List.cons_ne_nil _ _
  rw [Text.lines, render, Text.pieces_intercalate hne hlines, h.renderedLines_eq]

theorem OfLines.readBack_render (h : d.OfLines location line) (hsource : '\n' ∉ location.source) :
    readBack location d.render = some (d.message, line, d.hint) := by
  have hlines := h.lines_render hsource
  unfold readBack
  cases hhint : d.hint with
  | none =>
    rw [hhint] at hlines
    rw [hlines]
    show some (_, _, _) = _
    rw [List.drop_left, List.drop_left]
  | some hint =>
    rw [hhint] at hlines
    rw [hlines]
    show some (_, _, some _) = _
    rw [List.drop_left, List.drop_left, List.drop_left]

end

end Diagnostic

/-! ## Causes -/

theorem lineFeed_not_mem_operator {c : Char} {k : Kind} (h : (c, k) ∈ Kind.logical) :
    '\n' ∉ [c] := by
  have hall : ∀ p ∈ Kind.logical, '\n' ∉ [p.1] := by decide
  exact hall _ h

/-- What is refused is told on one line, unless it is a line feed itself. -/
theorem Refusal.lineFeed_not_mem_message {logical : Bool} {cause : Cause} {w s : Text}
    (h : Refusal logical cause w s) (hw : w.head? ≠ some '\n') : '\n' ∉ cause.message := by
  have hquoted : ∀ v, '\n' ∉ v → '\n' ∉ (Cause.invalidToken v).message := by
    intro v hv
    exact List.not_mem_append (List.not_mem_append (by decide) hv) (by decide)
  have hexpected : '\n' ∉ "expected '".toList := by decide
  have hfoundMark : '\n' ∉ "', found '".toList := by decide
  cases h with
  | string _ => decide +kernel
  | comment _ => decide +kernel
  | operator _ hmem _ =>
    have hmark := lineFeed_not_mem_operator hmem
    have hdouble := List.not_mem_append (List.not_mem_append hexpected hmark) hmark
    cases s with
    | nil => exact List.not_mem_append hdouble (by decide)
    | cons d s =>
      have hfound := List.not_mem_append (List.not_mem_append hdouble hfoundMark) hmark
      exact List.not_mem_append (List.not_mem_append hfound (by decide))
        (Text.lineFeed_not_mem_quoted _)
  | word _ hjoined _ _ => exact hquoted _ hjoined.lineFeed_not_mem
  | @character c s _ =>
    apply hquoted
    intro hmem
    rw [List.mem_singleton] at hmem
    exact hw (by rw [hmem]; rfl)

/-- A hint is one line, and never empty. -/
theorem Refusal.hint_isLine {logical : Bool} {cause : Cause} {w s : Text}
    (h : Refusal logical cause w s) {hint : Text} (hhint : cause.hint = some hint) :
    hint ≠ [] ∧ '\n' ∉ hint := by
  have hword : ∀ v, Cause.wordHint v = some hint → hint ≠ [] ∧ '\n' ∉ hint := by
    intro v hv
    unfold Cause.wordHint at hv
    split at hv
    · split at hv
      · cases hv
        decide
      · cases hv
        decide
    · cases hv
  have huse : '\n' ∉ "use '".toList := by decide
  cases h with
  | string _ =>
    cases hhint
    decide
  | comment _ =>
    cases hhint
    decide
  | operator _ hmem _ =>
    have hmark := lineFeed_not_mem_operator hmem
    cases hhint
    have hdouble := List.not_mem_append (List.not_mem_append huse hmark) hmark
    exact ⟨by simp, List.not_mem_append hdouble (by decide)⟩
  | word _ _ _ _ => exact hword _ hhint
  | character _ => exact hword _ hhint

/-! ## Calls -/

/-- Every error of a call is shown line by line, under the name of the lexer's source. -/
theorem Lexer.exists_ofLines_next {l : Lexer} {d : Diagnostic} (hd : l.next.1 = .error d) :
    ∃ n line, d.OfLines ⟨l.source, n⟩ line := by
  rcases l.next_cases with ⟨-, hn⟩ | ⟨-, ⟨k, x, he, -⟩ | ⟨cause, he, hrefusal⟩⟩
  · rw [hn] at hd
    cases hd
  · rw [he] at hd
    cases hd
  · -- what is refused begins behind the spaces
    have hhead : l.taken.head? ≠ some '\n' := by
      intro hhead
      obtain ⟨r, hr⟩ := List.head?_eq_some_iff.mp hhead
      have hfront := l.front_eq_next
      rw [hr] at hfront
      cases isSpace_of_front_cons hfront
    have hmessage := hrefusal.lineFeed_not_mem_message hhead
    have hhere : ∀ m : Lexer, m.source = l.source → m.errorHere cause = .error d →
        d.OfLines ⟨l.source, m.line⟩ m.cursor.lineText := by
      intro m hsource hm
      cases hm
      rw [← hsource]
      exact ⟨rfl, rfl, hmessage, m.cursor.lineFeed_not_mem_lineText,
        fun hint hhint => hrefusal.hint_isLine hhint⟩
    rw [he] at hd
    split at hd
    · exact ⟨_, _, hhere _ l.source_next hd⟩
    · exact ⟨_, _, hhere l.skipSpace rfl hd⟩

namespace Reader

/-- **Diagnostics keep their layout.**  If the name of the source is one line, then behind any
history the error of a call has a line number and a source line, and is shown on two lines, or on
three if it has a hint: where it is and what it says, the source line, and the hint.  So no part of
the text adds or removes a line, and the three can be read back from what is shown. -/
theorem shown_diagnostic_reads_back {source : Text} (hsource : '\n' ∉ source) (first : Int)
    (logical : Bool) (text : Text) (history : List Lexer.Action) :
    let s := ((start source first logical text).run history).2
    let l := ((Lexer.start source first logical text).run history).2
    ∀ d, s.call.1 = .error (.diagnostic d) ∨ l.next.1 = .error d →
      ∃ (n : Int) (line : Text),
        d.location = some ⟨source, n⟩ ∧ d.sourceLine = some line ∧
          d.render.lines =
            (source ++ ":".toList ++ Text.ofInt n ++ ": error: ".toList ++ d.message) ::
              ("    ".toList ++ line) :: (d.hint.map ("hint: ".toList ++ ·)).toList ∧
          Diagnostic.readBack ⟨source, n⟩ d.render = some (d.message, line, d.hint) := by
  intro s l d hd
  have hnext : l.next.1 = .error d := next_of_run hd
  have hname : l.source = source := Lexer.source_run _ history
  obtain ⟨n, line, hlines⟩ := Lexer.exists_ofLines_next hnext
  rw [hname] at hlines
  exact ⟨n, line, hlines.location_eq, hlines.sourceLine_eq, hlines.lines_render hsource,
    hlines.readBack_render hsource⟩

/-- An operator in front of a line feed, which is quoted in the message. -/
theorem shown_diagnostic_reads_back_operator :
    let source : Text := "a.lox".toList
    let text : Text := "x &\n2a;".toList
    let s := ((start source 7 true text).run [.next]).2
    let d : Diagnostic := ⟨.unpairedOperator ['&'] (some ['\n']), some ⟨source, 7⟩,
      some "x &".toList⟩
    '\n' ∉ source ∧ s.call.1 = .error (.diagnostic d) ∧
      ∃ (n : Int) (line : Text),
        Diagnostic.readBack ⟨source, n⟩ d.render = some (d.message, line, d.hint) := by
  intro source text s d
  have hsource : '\n' ∉ source := by decide
  have hcall : s.call.1 = .error (.diagnostic d) := by decide +kernel
  obtain ⟨n, line, -, -, -, hread⟩ :=
    shown_diagnostic_reads_back hsource 7 true text [.next] d (Or.inl hcall)
  exact ⟨hsource, hcall, n, line, hread⟩

end Reader

end LoxLexer
