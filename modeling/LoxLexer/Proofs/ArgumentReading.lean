import Mathlib.Data.List.Forall2
import LoxLexer.Command.Arguments
import LoxLexer.Proofs.Reading

/-!
# What arguments say

Arguments are a list of items: switches, values for the first line, and
positional arguments.  `Reads` is the table of the forms that an item has.  The
sorting of arguments finds the items by this table, and fails if there are none;
a request is then made of the items alone, whatever their order among the sorts.

    parse args = .ok a ↔ args read as items, sorted out as a            (parse_eq_ok_iff)
    a request for a scan has values that can be read and one script     (request_eq_scan)
-/

namespace LoxLexer

namespace Arguments

inductive Item
  | switch (s : Switch)
  | firstLine (value : Text)
  | positional (arg : Text)
  deriving DecidableEq, Repr

/-- Arguments, and the items that they read as. -/
inductive Reads : List Text → List Item → Prop
  | nil : Reads [] []
  /-- Behind two dashes there are no options. -/
  | dashes (rest : List Text) : Reads ("--".toList :: rest) (rest.map .positional)
  | positional {arg : Text} {rest : List Text} {items : List Item}
      (h : arg.head? ≠ some '-' ∨ arg = ['-']) (later : Reads rest items) :
      Reads (arg :: rest) (.positional arg :: items)
  | long {name : Text} {s : Switch} {rest : List Text} {items : List Item}
      (h : (name, .switch s) ∈ longOptions) (later : Reads rest items) :
      Reads (name :: rest) (.switch s :: items)
  | short {letters : Text} {switches : List Switch} {rest : List Text} {items : List Item}
      (hne : letters ≠ [])
      (h : List.Forall₂ (fun c s => (c, s) ∈ shortSwitches) letters switches)
      (later : Reads rest items) :
      Reads (('-' :: letters) :: rest) (switches.map .switch ++ items)
  | firstLine (value : Text) {rest : List Text} {items : List Item} (later : Reads rest items) :
      Reads (firstLineOption :: value :: rest) (.firstLine value :: items)
  | joinedFirstLine (value : Text) {rest : List Text} {items : List Item}
      (later : Reads rest items) :
      Reads ((firstLineOption ++ '=' :: value) :: rest) (.firstLine value :: items)

namespace Item

def switch? : Item → Option Switch
  | switch s => some s
  | _ => none

def firstLine? : Item → Option Text
  | firstLine value => some value
  | _ => none

def positional? : Item → Option Text
  | positional arg => some arg
  | _ => none

end Item

/-- The value of the last such item. -/
def lastFirstLine (items : List Item) : Option Text := (items.filterMap Item.firstLine?).getLast?

def scripts (items : List Item) : List Text := items.filterMap Item.positional?

/-- Arguments with these items behind what they have. -/
def add (a : Arguments) (items : List Item) : Arguments where
  switches := a.switches ++ items.filterMap Item.switch?
  firstLine := (lastFirstLine items).or a.firstLine
  positional := a.positional ++ scripts items

/-! ## Items added one by one -/

section
variable (a : Arguments) (items : List Item)

theorem add_nil : a.add [] = a := by
  simp [add, lastFirstLine, scripts]

theorem add_switches (switches : List Switch) :
    a.add (switches.map .switch ++ items) =
      { a with switches := a.switches ++ switches }.add items := by
  have hswitch : (switches.map Item.switch).filterMap Item.switch? = switches := by
    simp [List.filterMap_map, Function.comp_def, Item.switch?]
  have hfirst : (switches.map Item.switch).filterMap Item.firstLine? = [] := by
    simp [List.filterMap_map, Function.comp_def, Item.firstLine?]
  have hpositional : (switches.map Item.switch).filterMap Item.positional? = [] := by
    simp [List.filterMap_map, Function.comp_def, Item.positional?]
  simp [add, lastFirstLine, scripts, List.filterMap_append, hswitch, hfirst, hpositional]

theorem add_firstLine (value : Text) :
    a.add (.firstLine value :: items) = { a with firstLine := some value }.add items := by
  have hlast : (lastFirstLine (.firstLine value :: items)).or a.firstLine =
      (lastFirstLine items).or (some value) := by
    simp only [lastFirstLine, List.filterMap_cons, Item.firstLine?, List.getLast?_cons]
    cases (items.filterMap Item.firstLine?).getLast? <;> rfl
  simp [add, scripts, hlast, List.filterMap_cons, Item.switch?, Item.positional?]

theorem add_positional (arg : Text) :
    a.add (.positional arg :: items) =
      { a with positional := a.positional ++ [arg] }.add items := by
  simp [add, lastFirstLine, scripts, List.filterMap_cons, Item.switch?, Item.firstLine?,
    Item.positional?]

theorem add_positionals (args : List Text) :
    a.add (args.map .positional) = { a with positional := a.positional ++ args } := by
  induction args generalizing a with
  | nil => simp [add_nil]
  | cons arg args ih => simp [add_positional, ih]

end

/-! ## One option -/

theorem splitValue_of_not_mem {arg : Text} (h : '=' ∉ arg) : splitValue arg = (arg, none) := by
  rw [splitValue, dropWhile_bne_self h]

theorem splitValue_joined {name : Text} (h : '=' ∉ name) (value : Text) :
    splitValue (name ++ '=' :: value) = (name, some value) := by
  rw [splitValue, dropWhile_bne h, takeWhile_bne h]

theorem lookup_longOptions {name : Text} {k : OptionKind} :
    longOptions.lookup name = some k ↔ (name, k) ∈ longOptions :=
  lookup_eq_some_iff_mem (by decide)

theorem lookup_shortSwitches {c : Char} {s : Switch} :
    shortSwitches.lookup c = some s ↔ (c, s) ∈ shortSwitches :=
  lookup_eq_some_iff_mem (by decide)

theorem bundle_eq_ok_iff {letters : Text} {switches : List Switch} :
    bundle letters = .ok switches ↔
      List.Forall₂ (fun c s => (c, s) ∈ shortSwitches) letters switches := by
  induction letters generalizing switches with
  | nil => simp [bundle, eq_comm]
  | cons c letters ih =>
    rw [List.forall₂_cons_left_iff, bundle]
    constructor
    · intro h
      split at h
      · next s hs =>
        cases hrest : bundle letters with
        | error e =>
          rw [hrest] at h
          cases h
        | ok rest =>
          rw [hrest] at h
          cases h
          exact ⟨s, rest, lookup_shortSwitches.mp hs, ih.mp hrest, rfl⟩
      · cases h
    · rintro ⟨s, rest, hs, hrest, rfl⟩
      rw [lookup_shortSwitches.mpr hs, ih.mpr hrest]
      rfl

theorem letter_of_forall₂ {letters : Text} {switches : List Switch}
    (h : List.Forall₂ (fun c s => (c, s) ∈ shortSwitches) letters switches) :
    ∀ c ∈ letters, c ≠ '-' ∧ c ≠ '=' := by
  have hall : ∀ p ∈ shortSwitches, p.1 ≠ '-' ∧ p.1 ≠ '=' := by decide
  induction h with
  | nil => simp
  | cons hmem _ ih => exact List.forall_mem_cons.mpr ⟨hall _ hmem, ih⟩

/-- An argument of a single option reads as what it gives. -/
inductive Gives : Text → Given → Prop
  | long {name : Text} {s : Switch} (h : (name, .switch s) ∈ longOptions) :
      Gives name (.switches [s])
  | short {letters : Text} {switches : List Switch} (hne : letters ≠ [])
      (h : List.Forall₂ (fun c s => (c, s) ∈ shortSwitches) letters switches) :
      Gives ('-' :: letters) (.switches switches)
  | firstLine : Gives firstLineOption (.firstLine none)
  | joinedFirstLine (value : Text) :
      Gives (firstLineOption ++ '=' :: value) (.firstLine (some value))

theorem eq_firstLineOption {name : Text} (h : (name, .firstLine) ∈ longOptions) :
    name = firstLineOption := by
  have hall : ∀ p ∈ longOptions, p.2 = .firstLine → p.1 = firstLineOption := by decide
  exact hall _ h rfl

theorem exists_letters {arg : Text} (h : isOption arg = true) :
    ∃ letters, arg = '-' :: letters ∧ letters ≠ [] := by
  simp only [isOption, Bool.and_eq_true, decide_eq_true_eq] at h
  obtain ⟨letters, rfl⟩ := List.head?_eq_some_iff.mp h.1
  exact ⟨letters, rfl, fun hnil => h.2 (by rw [hnil])⟩

theorem gives_of_bundle {arg : Text} {g : Given} (harg : isOption arg = true)
    (h : (if "--".toList.isPrefixOf arg then Except.error (.noSuchOption (splitValue arg).1)
      else (bundle (arg.drop 1)).map Given.switches) = .ok g) : Gives arg g := by
  obtain ⟨letters, rfl, hne⟩ := exists_letters harg
  split at h
  · cases h
  · rw [List.drop_one, List.tail_cons] at h
    cases hbundle : bundle letters with
    | error e =>
      rw [hbundle] at h
      cases h
    | ok switches =>
      rw [hbundle] at h
      cases h
      exact .short hne (bundle_eq_ok_iff.mp hbundle)

theorem gives_of_readOption {arg : Text} {g : Given} (harg : isOption arg = true)
    (h : readOption arg = .ok g) : Gives arg g := by
  have hsplit : splitValue arg = (arg, none) ∨
      ∃ name value, splitValue arg = (name, some value) ∧ arg = name ++ '=' :: value := by
    by_cases hmem : '=' ∈ arg
    · obtain ⟨name, value, rfl, hname⟩ := List.eq_append_cons_of_mem hmem
      exact Or.inr ⟨name, value, splitValue_joined hname value, rfl⟩
    · exact Or.inl (splitValue_of_not_mem hmem)
  unfold readOption at h
  rcases hsplit with hs | ⟨name, value, hs, hjoined⟩
  · rw [hs] at h
    simp only at h
    split at h
    · next hlookup =>
      cases h
      rw [eq_firstLineOption (lookup_longOptions.mp hlookup)]
      exact .firstLine
    · next s hlookup =>
      cases h
      exact .long (lookup_longOptions.mp hlookup)
    · exact gives_of_bundle harg (by rwa [hs])
  · rw [hs] at h
    simp only at h
    split at h
    · next hlookup =>
      cases h
      rw [hjoined, eq_firstLineOption (lookup_longOptions.mp hlookup)]
      exact .joinedFirstLine value
    · cases h
    · exact gives_of_bundle harg (by rwa [hs])

theorem isOption_cons (c : Char) (letters : Text) : isOption ('-' :: c :: letters) = true := by
  simp [isOption]

theorem firstLineOption_eq : firstLineOption = '-' :: '-' :: "first-line".toList := by decide

theorem lookup_firstLineOption : longOptions.lookup firstLineOption = some .firstLine := by decide

/-- The names of long options are longer than two dashes, and have no equals sign. -/
theorem exists_longName {name : Text} {k : OptionKind} (h : (name, k) ∈ longOptions) :
    '=' ∉ name ∧ ∃ c letters, name = '-' :: '-' :: c :: letters := by
  have hequals : ∀ p ∈ longOptions, '=' ∉ p.1 := by decide
  have hdashes : ∀ p ∈ longOptions, p.1.take 2 = ['-', '-'] ∧ p.1.drop 2 ≠ [] := by decide
  obtain ⟨htake, hdrop⟩ := hdashes _ h
  obtain ⟨c, letters, hletters⟩ := List.exists_cons_of_ne_nil hdrop
  refine ⟨hequals _ h, c, letters, ?_⟩
  rw [← List.take_append_drop 2 name, htake, hletters]
  rfl

theorem readOption_of_gives {arg : Text} {g : Given} (h : Gives arg g) :
    isOption arg = true ∧ arg ≠ "--".toList ∧ readOption arg = .ok g := by
  cases h with
  | firstLine =>
    have hname : '=' ∉ firstLineOption := by decide
    refine ⟨by decide, by decide, ?_⟩
    rw [readOption, splitValue_of_not_mem hname]
    simp only [lookup_firstLineOption]
  | joinedFirstLine value =>
    have hname : '=' ∉ firstLineOption := by decide
    refine ⟨isOption_cons _ _, by simp [firstLineOption_eq], ?_⟩
    rw [readOption, splitValue_joined hname]
    simp only [lookup_firstLineOption]
  | @long name s h =>
    obtain ⟨hequals, c, letters, hname⟩ := exists_longName h
    refine ⟨hname ▸ isOption_cons _ _, by simp [hname], ?_⟩
    rw [readOption, splitValue_of_not_mem hequals]
    simp only [lookup_longOptions.mpr h]
    rfl
  | @short letters switches hne h =>
    obtain ⟨c, rest, rfl⟩ := List.exists_cons_of_ne_nil hne
    have hletters := letter_of_forall₂ h
    have hc : c ≠ '-' := (hletters c List.mem_cons_self).1
    have hequals : '=' ∉ '-' :: c :: rest := fun hmem => by
      rcases List.mem_cons.mp hmem with heq | hmem
      · cases heq
      · exact (hletters _ hmem).2 rfl
    have hlookup : longOptions.lookup ('-' :: c :: rest) = none := by
      cases hsome : longOptions.lookup ('-' :: c :: rest) with
      | none => rfl
      | some k =>
        obtain ⟨-, d, t, hname⟩ := exists_longName (lookup_longOptions.mp hsome)
        exact absurd (List.cons.inj (List.cons.inj hname).2).1 hc
    have hprefix : "--".toList.isPrefixOf ('-' :: c :: rest) = false := by
      simp [List.isPrefixOf, Ne.symm hc]
    refine ⟨isOption_cons c rest, by simp [hc], ?_⟩
    rw [readOption, splitValue_of_not_mem hequals]
    simp only [hlookup, hprefix]
    rw [List.drop_one, List.tail_cons, bundle_eq_ok_iff.mpr h]
    rfl

/-! ## All arguments -/

theorem isOption_eq_false_iff {arg : Text} :
    isOption arg = false ↔ arg.head? ≠ some '-' ∨ arg = ['-'] := by
  simp [isOption, or_iff_not_imp_left]

section
variable (a : Arguments) (rest : List Text)

theorem parseFrom_dashes :
    parseFrom a ("--".toList :: rest) = .ok { a with positional := a.positional ++ rest } := by
  rw [parseFrom.eq_def]
  simp only [if_true]

theorem parseFrom_positional {arg : Text} (h : isOption arg = false) :
    parseFrom a (arg :: rest) = parseFrom { a with positional := a.positional ++ [arg] } rest := by
  have hdashes : arg ≠ "--".toList := by
    rintro rfl
    cases h
  rw [parseFrom.eq_def]
  simp only [if_neg hdashes, h, Bool.false_eq_true, if_false]

section
variable {arg : Text}

theorem parseFrom_switches {switches : List Switch} (h : Gives arg (.switches switches)) :
    parseFrom a (arg :: rest) = parseFrom { a with switches := a.switches ++ switches } rest := by
  obtain ⟨hoption, hdashes, hread⟩ := readOption_of_gives h
  rw [parseFrom.eq_def]
  simp only [if_neg hdashes, if_pos hoption, hread]

theorem parseFrom_joinedFirstLine {value : Text} (h : Gives arg (.firstLine (some value))) :
    parseFrom a (arg :: rest) = parseFrom { a with firstLine := some value } rest := by
  obtain ⟨hoption, hdashes, hread⟩ := readOption_of_gives h
  rw [parseFrom.eq_def]
  simp only [if_neg hdashes, if_pos hoption, hread]

theorem parseFrom_firstLine (value : Text) (h : Gives arg (.firstLine none)) :
    parseFrom a (arg :: value :: rest) = parseFrom { a with firstLine := some value } rest := by
  obtain ⟨hoption, hdashes, hread⟩ := readOption_of_gives h
  rw [parseFrom.eq_def]
  simp only [if_neg hdashes, if_pos hoption, hread]

theorem parseFrom_firstLine_nil (h : Gives arg (.firstLine none)) :
    parseFrom a [arg] = .error (.missingValue firstLineOption) := by
  obtain ⟨hoption, hdashes, hread⟩ := readOption_of_gives h
  rw [parseFrom.eq_def]
  simp only [if_neg hdashes, if_pos hoption, hread]

end

end

/-- Arguments that read as items are sorted out by them. -/
theorem parseFrom_of_reads {args : List Text} {items : List Item} (h : Reads args items)
    (a : Arguments) : parseFrom a args = .ok (a.add items) := by
  induction h generalizing a with
  | nil => rw [parseFrom.eq_def, add_nil]
  | dashes rest => rw [parseFrom_dashes, add_positionals]
  | positional harg _ ih =>
    rw [parseFrom_positional a _ (isOption_eq_false_iff.mpr harg), ih, add_positional]
  | @long name s rest items h _ ih =>
    rw [parseFrom_switches a rest (.long h), ih, ← add_switches]
    rfl
  | short hne h _ ih => rw [parseFrom_switches a _ (.short hne h), ih, ← add_switches]
  | firstLine value _ ih =>
    rw [parseFrom_firstLine a _ value .firstLine, ih, add_firstLine]
  | joinedFirstLine value _ ih =>
    rw [parseFrom_joinedFirstLine a _ (.joinedFirstLine value), ih, add_firstLine]

/-- Arguments that can be sorted out read as items. -/
theorem exists_reads_of_parseFrom {args : List Text} {a b : Arguments}
    (h : parseFrom a args = .ok b) : ∃ items, Reads args items := by
  induction hn : args.length using Nat.strongRecOn generalizing args a with
  | _ n ih =>
    subst hn
    cases args with
    | nil => exact ⟨[], .nil⟩
    | cons arg rest =>
      by_cases hdashes : arg = "--".toList
      · subst hdashes
        exact ⟨_, .dashes rest⟩
      cases harg : isOption arg with
      | false =>
        rw [parseFrom_positional a rest harg] at h
        obtain ⟨items, hitems⟩ := ih _ (by simp) h rfl
        exact ⟨_, .positional (isOption_eq_false_iff.mp harg) hitems⟩
      | true =>
        cases hread : readOption arg with
        | error e =>
          rw [parseFrom.eq_def] at h
          simp only [if_neg hdashes, if_pos harg, hread] at h
          cases h
        | ok g =>
          have hgives := gives_of_readOption harg hread
          cases g with
          | switches switches =>
            rw [parseFrom_switches a rest hgives] at h
            obtain ⟨items, hitems⟩ := ih _ (by simp) h rfl
            cases hgives with
            | long hmem => exact ⟨_, .long hmem hitems⟩
            | short hne hmem => exact ⟨_, .short hne hmem hitems⟩
          | firstLine value =>
            cases hgives with
            | joinedFirstLine value =>
              rw [parseFrom_joinedFirstLine a rest (.joinedFirstLine value)] at h
              obtain ⟨items, hitems⟩ := ih _ (by simp) h rfl
              exact ⟨_, .joinedFirstLine value hitems⟩
            | firstLine =>
              cases rest with
              | nil =>
                rw [parseFrom_firstLine_nil a .firstLine] at h
                cases h
              | cons value rest =>
                rw [parseFrom_firstLine a rest value .firstLine] at h
                obtain ⟨items, hitems⟩ := ih _ (by simp only [List.length_cons]; omega) h rfl
                exact ⟨_, .firstLine value hitems⟩

/-- **Arguments are what they read as.** -/
theorem parse_eq_ok_iff {args : List Text} {a : Arguments} :
    parse args = .ok a ↔ ∃ items, Reads args items ∧ a = add {} items := by
  constructor
  · intro h
    obtain ⟨items, hitems⟩ := exists_reads_of_parseFrom h
    have hparse := parseFrom_of_reads hitems {}
    exact ⟨items, hitems, Except.ok.inj (h.symm.trans hparse)⟩
  · rintro ⟨items, hitems, rfl⟩
    exact parseFrom_of_reads hitems {}

/-! ## Requests -/

/-- The scan that the items ask for. -/
def scanRequest (items : List Item) (script : Option Text) : ScanRequest where
  script
  firstLine := (lastFirstLine items).bind fun v => (Number.readInteger v).toOption
  noComments := items.contains (.switch .noComments)
  noLogical := items.contains (.switch .noLogical)
  quiet := items.contains (.switch .quiet)
  verbose := items.contains (.switch .verbose)

/-- The script that is asked for: none, or the normal path of the one file that is given. -/
inductive ScriptOf (files : Files) : List Text → Option Text → Prop
  | none : ScriptOf files [] none
  | file {path : Text} {content : Bytes} (h : files path = .file content) :
      ScriptOf files [path] (some (Path.normal path))

theorem mem_filterMap_switch?_iff {s : Switch} {items : List Item} :
    s ∈ items.filterMap Item.switch? ↔ .switch s ∈ items := by
  rw [List.mem_filterMap]
  constructor
  · rintro ⟨item, hitem, hs⟩
    cases item <;> cases hs
    exact hitem
  · exact fun h => ⟨_, h, rfl⟩

theorem contains_filterMap_switch? (s : Switch) (items : List Item) :
    (items.filterMap Item.switch?).contains s = items.contains (.switch s) := by
  rw [Bool.eq_iff_iff, List.contains_iff_mem, List.contains_iff_mem, mem_filterMap_switch?_iff]

theorem firstLineValue_eq_ok {value : Option Text} {first : Option Int}
    (h : firstLineValue value = .ok first) :
    first = value.bind fun v => (Number.readInteger v).toOption := by
  cases value with
  | none => exact (Except.ok.inj h).symm
  | some v =>
    simp only [firstLineValue] at h
    split at h
    · next n hn =>
      cases h
      simp [hn, Except.toOption]
    · cases h

theorem scriptOf_of_scriptValue {files : Files} {paths : List Text} {script : Option Text}
    (h : scriptValue files paths.head? = .ok script) (htail : paths.tail = []) :
    ScriptOf files paths script := by
  cases paths with
  | nil =>
    cases h
    exact .none
  | cons path paths =>
    obtain rfl : paths = [] := htail
    simp only [List.head?_cons, scriptValue] at h
    split at h
    · next content hfile =>
      cases h
      exact .file hfile
    · cases h
    · cases h

/-- **A scan is asked for** by the items: the last number of the first line that is given, which
can be read, the switches that are among them, and one script at most. -/
theorem request_eq_scan {files : Files} {items : List Item} {r : ScanRequest}
    (h : (add {} items).request files = .ok (.scan r)) :
    ∃ script, ScriptOf files (scripts items) script ∧
      r = scanRequest items script := by
  have hadd : add {} items =
      ⟨items.filterMap Item.switch?, lastFirstLine items, scripts items⟩ := by
    simp [add]
  rw [hadd, request] at h
  split at h
  · next r' hinfo =>
    cases h
    obtain ⟨s, -, hs⟩ := List.exists_of_findSome?_eq_some hinfo
    cases s <;> cases hs
  · cases hfirst : firstLineValue (lastFirstLine items) with
    | error e =>
      rw [hfirst] at h
      cases h
    | ok first =>
      cases hscript : scriptValue files (scripts items).head? with
      | error e =>
        rw [hfirst, hscript] at h
        cases h
      | ok script =>
        rw [hfirst, hscript] at h
        by_cases htail : (scripts items).tail = []
        · refine ⟨script, scriptOf_of_scriptValue hscript htail, ?_⟩
          simp only [htail, contains_filterMap_switch?, firstLineValue_eq_ok hfirst] at h
          cases h
          rfl
        · change (if (scripts items).tail ≠ [] then
            Except.error (UsageError.extraArguments (scripts items).tail) else _) = _ at h
          rw [if_pos htail] at h
          cases h

end Arguments

end LoxLexer
