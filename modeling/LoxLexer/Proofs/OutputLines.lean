import LoxLexer.Proofs.CommandLine
import LoxLexer.Proofs.LongestMatch

/-!
# The lines of the output

The command writes the tokens that are kept one after the other, with a line feed
behind each.  A lexeme is written as it stands, so that its own line feeds part
lines, too.  Strings and block comments can have some, and nothing else has: the
tokens are the lines of the output just when no string and no block comment that
is kept goes over several lines.

    a lexeme with a line feed is a string's or a block comment's  (Spelling.marks_of_lineFeed)
    a listing has the lines of its tokens, in order               (lines_listing)
    these are the tokens iff no lexeme has a line feed            (lines_listing_eq_iff)
    all of this for every invocation that scans                   (run_lists_tokens)
    one token that is written on two lines                        (run_parts_string)
-/

namespace LoxLexer

/-! ## Lexemes on several lines -/

/-- Line feeds in a lexeme stand between the marks of a string or of a block comment. -/
theorem Spelling.marks_of_lineFeed {logical : Bool} {final : Prop} {k : Kind} {x w : Text}
    (h : Spelling logical final k x w) (hx : '\n' ∈ x) :
    (k = .string ∧ w = '"' :: (x ++ ['"'])) ∨
      (k = .comment ∧ w = '/' :: '*' :: (x ++ endMark)) := by
  have hstart : ∀ c, Starts logical c → '\n' ≠ c := by
    rintro c hc rfl
    cases hc.not_isSpace
  cases h with
  | punctuation hc => exact absurd (List.mem_singleton.mp hx) (hstart _ (.punctuation hc))
  | single hc => exact absurd (List.mem_singleton.mp hx) (hstart _ (.comparison hc))
  | double hc =>
    rcases List.mem_cons.mp hx with heq | hx
    · exact absurd heq (hstart _ (.comparison hc))
    · exact absurd (List.mem_singleton.mp hx) (by decide)
  | divide => exact absurd (List.mem_singleton.mp hx) (by decide)
  | operator hlogical hc =>
    have hne := hstart _ (.operator hlogical hc)
    rcases List.mem_cons.mp hx with heq | hx
    · exact absurd heq hne
    · exact absurd (List.mem_singleton.mp hx) hne
  | word hw => exact absurd hx (hw.joined []).lineFeed_not_mem
  | string _ => exact Or.inl ⟨rfl, rfl⟩
  | lineComment hb _ =>
    unfold Lexed.trimReturn at hx
    split at hx
    · exact absurd ((List.dropLast_sublist _).subset hx) hb
    · exact absurd hx hb
  | blockComment _ => exact Or.inr ⟨rfl, rfl⟩

/-- The token is a string or a block comment of the text, and this is where its lexeme is from. -/
def Token.Enclosed (text : Text) (t : Token) : Prop :=
  (t.kind = .string ∧ ('"' :: (t.lexeme ++ ['"'])) <:+: text) ∨
    (t.kind = .comment ∧ ('/' :: '*' :: (t.lexeme ++ endMark)) <:+: text)

theorem Lexer.Placed.enclosed_of_mem_drain {l : Lexer} {first : Int} {text : Text}
    (h : l.Placed first text) :
    ∀ t ∈ l.drain.tokens, t.kind ≠ .endOfInput → '\n' ∈ t.lexeme → t.Enclosed text := by
  refine forall_mem_drain (Q := fun l => l.Placed first text) (fun l hl => hl.next) ?_ l h
  intro l t hl ht hkind hfeed
  have htaken : l.taken <:+: text := by
    refine ⟨l.cursor.seen.reverse ++ l.spaces, l.next.2.cursor.rest, ?_⟩
    rw [← hl.text_eq, Cursor.text, l.rest_eq_next]
    simp only [List.append_assoc]
  rcases (spelling_taken ht hkind).marks_of_lineFeed hfeed with ⟨hk, hw⟩ | ⟨hk, hw⟩
  · exact Or.inl ⟨hk, hw ▸ htaken⟩
  · exact Or.inr ⟨hk, hw ▸ htaken⟩

theorem count_of_framed {x : Char} {mark name separator lexeme line close : Text}
    (hmark : x ∉ mark) (hname : x ∉ name) (hseparator : x ∉ separator) (hline : x ∉ line)
    (hclose : x ∉ close) :
    (mark ++ name ++ separator ++ lexeme ++ separator ++ line ++ close).count x =
      lexeme.count x := by
  simp only [List.count_append, List.count_eq_zero.mpr hmark, List.count_eq_zero.mpr hname,
    List.count_eq_zero.mpr hseparator, List.count_eq_zero.mpr hline, List.count_eq_zero.mpr hclose,
    Nat.zero_add, Nat.add_zero]

theorem Token.count_lineFeed_render (t : Token) : t.render.count '\n' = t.lexeme.count '\n' :=
  count_of_framed (by decide) (t.kind.not_mem_name (by decide)) (by decide)
    (Text.not_mem_ofInt (by decide) (by decide) t.line) (by decide)

/-! ## Lines that are written -/

theorem Terminal.count_lineFeed_plain (t : Text) : (plain t).count '\n' = t.count '\n' := by
  have hlength := congrArg List.length (lines_plain t)
  rw [List.length_map, Text.lines, Text.lines, Text.length_pieces, Text.length_pieces] at hlength
  exact Nat.add_right_cancel hlength

/-- Tokens, as they go out. -/
def listing (tokens : List Token) : Text :=
  tokens.flatMap fun t => Terminal.plain t.render ++ ['\n']

theorem listing_cons (t : Token) (tokens : List Token) :
    listing (t :: tokens) = Terminal.plain t.render ++ '\n' :: listing tokens := by
  rw [listing, List.flatMap_cons, List.append_assoc]
  rfl

/-- A listing has the lines of its tokens, in order, and ends behind a line feed. -/
theorem lines_listing (tokens : List Token) :
    (listing tokens).lines =
      (tokens.flatMap fun t => (Terminal.plain t.render).lines) ++ [[]] := by
  induction tokens with
  | nil => rfl
  | cons t tokens ih =>
    rw [listing_cons, Text.lines, Text.pieces_append_sep, List.flatMap_cons, List.append_assoc,
      ← ih]
    rfl

theorem count_lineFeed_listing (tokens : List Token) :
    (listing tokens).count '\n' =
      tokens.length + (tokens.flatMap fun t => t.lexeme).count '\n' := by
  induction tokens with
  | nil => rfl
  | cons t tokens ih =>
    rw [listing_cons, List.count_append, List.count_cons_self, ih,
      Terminal.count_lineFeed_plain, t.count_lineFeed_render, List.length_cons, List.flatMap_cons,
      List.count_append]
    omega

/-- The lines are the tokens if no lexeme has a line feed, and only then. -/
theorem lines_listing_eq_iff (tokens : List Token) :
    (listing tokens).lines = (tokens.map fun t => Terminal.plain t.render) ++ [[]] ↔
      ∀ t ∈ tokens, '\n' ∉ t.lexeme := by
  constructor
  · intro h t ht
    have hlength := congrArg List.length h
    rw [Text.lines, Text.length_pieces, count_lineFeed_listing, List.length_append,
      List.length_map, List.length_singleton] at hlength
    have hzero : (tokens.flatMap fun t => t.lexeme).count '\n' = 0 := by omega
    intro hfeed
    exact List.count_eq_zero.mp hzero (List.mem_flatMap.mpr ⟨t, ht, hfeed⟩)
  · intro h
    have hline : ∀ t ∈ tokens, (Terminal.plain t.render).lines = [Terminal.plain t.render] := by
      intro t ht
      apply Text.pieces_of_not_mem
      rw [← List.count_eq_zero, Terminal.count_lineFeed_plain, t.count_lineFeed_render]
      exact List.count_eq_zero.mpr (h t ht)
    rw [lines_listing, List.flatMap_congr hline, ← List.map_eq_flatMap]

namespace Command

/-- What is written lists the tokens of a text. -/
structure Lists (text : Text) (tokens : List Token) (stdout : Text) : Prop where
  stdout_eq : stdout = listing tokens
  /-- A token goes out as it is, unless its lexeme can hold a control sequence. -/
  verbatim : ∀ t ∈ tokens, Terminal.escapeChar ∉ t.lexeme → Terminal.plain t.render = t.render
  /-- A line for each token, and one more for each line feed in a lexeme. -/
  count_lineFeed : stdout.count '\n' =
    tokens.length + (tokens.flatMap fun t => t.lexeme).count '\n'
  /-- Only strings and block comments take more lines than one. -/
  enclosed : ∀ t ∈ tokens, '\n' ∈ t.lexeme → t.Enclosed text
  /-- The lines are the tokens just when each token is on one line. -/
  lines_eq_iff : stdout.lines = (tokens.map fun t => Terminal.plain t.render) ++ [[]] ↔
    ∀ t ∈ tokens, '\n' ∉ t.lexeme

theorem printed_render (t : Token) : printed t.render = Terminal.plain t.render ++ ['\n'] :=
  Terminal.plain_append_lineFeed t.render []

theorem lists_of_outcome_ok {includeComments : Bool} {name text : Text} {settings : Settings}
    {s : Summary} (h : (Scan.ofText includeComments name settings text).outcome = .ok s) :
    Lists text s.tokens (listing s.tokens) where
  stdout_eq := rfl
  verbatim _ _ hescape := Terminal.plain_of_not_mem (Terminal.escapeChar_not_mem_token hescape)
  count_lineFeed := count_lineFeed_listing s.tokens
  enclosed := by
    obtain ⟨-, -, rfl⟩ := Scan.outcome_eq_ok_iff.mp h
    intro t ht
    obtain ⟨hmem, hkeeps⟩ := List.mem_filter.mp ht
    have hkind : t.kind ≠ .endOfInput := by
      simp only [Scan.keeps, Bool.and_eq_true, decide_eq_true_eq] at hkeeps
      exact hkeeps.1
    exact (Lexer.placed_start _ _ _ text).enclosed_of_mem_drain t hmem hkind
  lines_eq_iff := lines_listing_eq_iff s.tokens

/-- **The tokens in the output.**  Whatever arguments ask for a scan that is neither quiet nor
verbose: if it succeeds, the source that they name has a text, the scan of this source comes to
tokens, and what is written lists these. -/
theorem run_lists_tokens (i : Invocation) (hfiles : i.files.Steady) {a : Arguments}
    {r : ScanRequest} (hparse : Arguments.parse i.arguments = .ok a)
    (hrequest : a.request i.files = .ok (.scan r)) (hquiet : r.quiet = false)
    (hverbose : r.verbose = false) (hsuccess : (run i).exit = .success) :
    ∃ items name content text summary, Arguments.Reads i.arguments items ∧
      SourceOf i (Arguments.scripts items) name content ∧
      let settings := effectiveSettings i items
      let input : Input := .reader (.ok (.bytes content))
      input.load settings.encoding ⟨name, settings.firstLine⟩ = .ok text ∧
        (Scan.run (!items.contains (.switch .noComments)) name settings input).outcome =
          .ok summary ∧
        Lists text summary.tokens (run i).stdout := by
  obtain ⟨items, hreads, rfl⟩ := Arguments.parse_eq_ok_iff.mp hparse
  obtain ⟨script, hscript, rfl⟩ := Arguments.request_eq_scan hrequest
  obtain ⟨name, content, hsource, hdelivered, houtcome⟩ := scanOf_eq hfiles hscript
  let r := Arguments.scanRequest items script
  have hrun : run i = scanOutcome i.platform r (scanned i r) := by
    simp only [run, hparse, hrequest]
    rfl
  cases hs : (scanned i r).outcome with
  | error f =>
    rw [hrun, scanOutcome_of_error hverbose hs] at hsuccess
    exact absurd hsuccess (Exit.ofFailure_ne_success f)
  | ok summary =>
    -- no token has been refused, so what went out is the whole scan
    have hscanned : scanned i r = scanOf i r := scanned_of_ok hs
    have hok := houtcome.symm.trans (hscanned ▸ hs)
    cases hload : (Input.reader (.ok (.bytes content))).load (effectiveSettings i items).encoding
        ⟨name, (effectiveSettings i items).firstLine⟩ with
    | error f =>
      rw [Scan.run, hload] at hok
      cases hok
    | ok text =>
      refine ⟨items, name, content, text, summary, hreads, hsource, hload, hok, ?_⟩
      rw [Scan.run_of_load hload] at hok hdelivered
      have hstdout : (run i).stdout = listing summary.tokens := by
        have hplain := scanOutcome_of_ok (p := i.platform) hverbose hs fun h => by
          rw [hquiet] at h
          cases h
        rw [hrun, hplain, hquiet, hscanned, hdelivered, Scan.ofText, Scan.delivered_of_ok hok]
        exact List.flatMap_congr fun t _ => printed_render t
      rw [hstdout]
      exact lists_of_outcome_ok hok

/-- A name, and a comment that takes two lines. -/
theorem run_lists_tokens_comment :
    let i : Invocation :=
      { arguments := ["--first-line=7".toList]
        environment := []
        standardInput := Encoding.Utf8.encode "x /*\n*/ // c".toList
        files := (FileTree.ofNames [] []).find }
    (run i).exit = .success ∧
      ∃ items name content text summary, Arguments.Reads i.arguments items ∧
        SourceOf i (Arguments.scripts items) name content ∧
        let settings := effectiveSettings i items
        let input : Input := .reader (.ok (.bytes content))
        input.load settings.encoding ⟨name, settings.firstLine⟩ = .ok text ∧
          (Scan.run (!items.contains (.switch .noComments)) name settings input).outcome =
            .ok summary ∧
          Lists text summary.tokens (run i).stdout := by
  intro i
  have hreads : Arguments.Reads i.arguments [.firstLine "7".toList] := .joinedFirstLine _ .nil
  have hrequest : Arguments.request i.files ⟨[], some "7".toList, []⟩ =
      .ok (.scan ⟨none, some 7, false, false, false, false⟩) := rfl
  have hsuccess : (run i).exit = .success := by decide +kernel
  exact ⟨hsuccess, run_lists_tokens i (FileTree.steady_find _)
    (Arguments.parse_eq_ok_iff.mpr ⟨_, hreads, rfl⟩) hrequest rfl rfl hsuccess⟩

/-- A string is one token, and takes two lines. -/
theorem run_parts_string :
    let i : Invocation :=
      { arguments := []
        environment := []
        standardInput := Encoding.Utf8.encode "\"a\nb\"".toList
        files := fun _ => .missing }
    let scan := Scan.run true standardInputName (effectiveSettings i [])
      (.reader (.ok (.bytes i.standardInput)))
    Arguments.parse i.arguments = .ok {} ∧
      Arguments.request i.files {} = .ok (.scan ⟨none, none, false, false, false, false⟩) ∧
      (run i).exit = .success ∧ scan.delivered = [⟨.string, "a\nb".toList, 1⟩] ∧
      (run i).stdout.lines = ["Token<STRING, a".toList, "b, 1>".toList, []] ∧
      (run i).stdout.count '\n' ≠ scan.delivered.length :=
  ⟨Arguments.parse_eq_ok_iff.mpr ⟨[], .nil, rfl⟩, rfl, by decide +kernel, by decide +kernel,
    by decide +kernel, by decide +kernel⟩

end Command

end LoxLexer
