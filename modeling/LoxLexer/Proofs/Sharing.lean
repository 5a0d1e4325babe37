import LoxLexer.Proofs.Calls
import LoxLexer.Session

/-!
# Sharing a reader

However plain calls, new iterators, resumed iterators and changed settings are
mixed, the answers are those of plain calls, in order and without a gap.  One
request either calls the reader once and hands that answer out, or it leaves the
reader alone; what an iterator hands out is cut off behind the end token and
behind an error.

    one request calls the reader once or not at all                     (serve_cases)
    the answers of a run are those of as many calls                     (answers_run)
    an iterator's life: tokens, an ending, then stops                   (life_run)
    behind the end token, an iterator's life is that token and stops    (repliesTo_of_done)
    all of this for every schedule                                      (run_shared)
-/

namespace LoxLexer

namespace Session

/-- What has been handed out, in the order of time. -/
def answers (served : List (Request × Reply)) : List Answer := served.filterMap (·.2.answer?)

/-- The replies that one iterator has given. -/
def repliesTo (i : Nat) (served : List (Request × Reply)) : List Reply :=
  (served.filter (·.1 = .resume i)).map (·.2)

/-- What an iterator may reply in its life: tokens, then the end token or an error, then nothing
but stops. -/
inductive Life : List Reply → Prop
  | nil : Life []
  | token {t : Token} {replies : List Reply} (h : t.kind ≠ .endOfInput) (later : Life replies) :
      Life (.answer (.ok t) :: replies)
  | ending {t : Token} (h : t.kind = .endOfInput) (n : Nat) :
      Life (.answer (.ok t) :: List.replicate n .stop)
  | failure (e : Stop) (n : Nat) : Life (.answer (.error e) :: List.replicate n .stop)

section
variable {s : Session} {i : Nat} {it : Iteration} {r : Request}

/-! ## One request -/

/-- A request calls the reader once and hands that answer out, or it leaves the reader alone. -/
theorem serve_cases (s : Session) (r : Request) :
    ((s.serve r).1 = .answer s.reader.call.1 ∧ (s.serve r).2.reader = s.reader.call.2) ∨
      ((s.serve r).1.answer? = none ∧ (s.serve r).2.reader = s.reader) := by
  cases r with
  | call => exact Or.inl ⟨rfl, rfl⟩
  | iterate => exact Or.inr ⟨rfl, rfl⟩
  | setFirstLine n => exact Or.inr ⟨rfl, rfl⟩
  | setEncoding name => exact Or.inr ⟨rfl, rfl⟩
  | resume i =>
    cases hi : s.iterators[i]? with
    | none => exact Or.inr (by simp [serve, resume, hi, Reply.answer?])
    | some it =>
      cases hgo : it.goesOn with
      | true => exact Or.inl (by simp [serve, resume_of_goesOn hi hgo, call])
      | false => exact Or.inr (by simp [serve, resume_of_stops hi hgo, Reply.answer?])

/-- Only the iterator that is resumed moves. -/
theorem iterators_serve (hi : s.iterators[i]? = some it) (hr : r ≠ .resume i) :
    (s.serve r).2.iterators[i]? = some it := by
  have hlt : i < s.iterators.length := (List.getElem?_eq_some_iff.mp hi).1
  cases r with
  | call => exact hi
  | setFirstLine n => exact hi
  | setEncoding name => exact hi
  | iterate =>
    show (s.iterators ++ [.unstarted])[i]? = some it
    rw [List.getElem?_append_left hlt, hi]
  | resume j =>
    have hji : j ≠ i := fun h => hr (by rw [h])
    cases hj : s.iterators[j]? with
    | none => simpa [serve, resume, hj] using hi
    | some it' =>
      cases hgo : it'.goesOn with
      | true => simpa [serve, resume_of_goesOn hj hgo, call, List.getElem?_set_ne hji] using hi
      | false => simpa [serve, resume_of_stops hj hgo, List.getElem?_set_ne hji] using hi

theorem serve_resume_of_goesOn (hi : s.iterators[i]? = some it) (h : it.goesOn = true) :
    (s.serve (.resume i)).1 = .answer s.reader.call.1 ∧
      (s.serve (.resume i)).2.reader = s.reader.call.2 ∧
      (s.serve (.resume i)).2.iterators[i]? = some (.afterAnswer s.reader.call.1) := by
  have hlt : i < s.iterators.length := (List.getElem?_eq_some_iff.mp hi).1
  simp [serve, resume_of_goesOn hi h, call, hlt]

theorem serve_resume_of_stops (hi : s.iterators[i]? = some it) (h : it.goesOn = false) :
    (s.serve (.resume i)).1 = .stop ∧
      (s.serve (.resume i)).2.iterators[i]? = some .spent := by
  have hlt : i < s.iterators.length := (List.getElem?_eq_some_iff.mp hi).1
  simp [serve, resume_of_stops hi h, hlt]

theorem reader_of_stop (h : (s.serve r).1 = .stop) : (s.serve r).2.reader = s.reader := by
  rcases s.serve_cases r with ⟨hanswer, -⟩ | ⟨-, hreader⟩
  · rw [h] at hanswer
    cases hanswer
  · exact hreader

/-! ## Whole runs -/

theorem answers_cons (p : Request × Reply) (served : List (Request × Reply)) :
    answers (p :: served) = p.2.answer?.toList ++ answers served := by
  cases h : p.2.answer? <;> simp [answers, h]

theorem repliesTo_cons_of_eq (p : Reply) (served : List (Request × Reply)) :
    repliesTo i ((.resume i, p) :: served) = p :: repliesTo i served := by
  simp [repliesTo]

theorem repliesTo_cons_of_ne (hr : r ≠ .resume i) (p : Reply) (served : List (Request × Reply)) :
    repliesTo i ((r, p) :: served) = repliesTo i served := by
  simp [repliesTo, hr]

/-- **Nothing is lost or repeated.**  The answers of a run are those of as many plain calls, and
so is the reader behind it. -/
theorem answers_run (s : Session) (schedule : List Request) :
    s.reader.calls (answers (s.run schedule).1).length =
      (answers (s.run schedule).1, (s.run schedule).2.reader) := by
  induction schedule generalizing s with
  | nil => rfl
  | cons r rs ih =>
    have hrest := ih (s.serve r).2
    simp only [run, answers_cons]
    rcases s.serve_cases r with ⟨hanswer, hreader⟩ | ⟨hnone, hreader⟩
    · rw [hreader] at hrest
      simp only [hanswer, Reply.answer?, Option.toList_some, List.singleton_append,
        List.length_cons, Reader.calls_succ, hrest]
    · rw [hreader] at hrest
      simpa only [hnone, Option.toList_none, List.nil_append] using hrest

/-- An iterator that has stopped goes on stopping. -/
theorem repliesTo_of_stops (hi : s.iterators[i]? = some it) (h : it.goesOn = false)
    (schedule : List Request) :
    ∃ n, repliesTo i (s.run schedule).1 = List.replicate n .stop := by
  induction schedule generalizing s it with
  | nil => exact ⟨0, rfl⟩
  | cons r rs ih =>
    by_cases hr : r = .resume i
    · subst hr
      obtain ⟨hreply, hspent⟩ := serve_resume_of_stops hi h
      obtain ⟨n, hn⟩ := ih hspent rfl
      refine ⟨n + 1, ?_⟩
      rw [run, repliesTo_cons_of_eq, hreply, hn, List.replicate_succ]
    · rw [run, repliesTo_cons_of_ne hr]
      exact ih (iterators_serve hi hr) h

/-- An iterator that goes on hands out tokens up to the first answer behind which it does not. -/
theorem life_run (hi : s.iterators[i]? = some it) (h : it.goesOn = true)
    (schedule : List Request) : Life (repliesTo i (s.run schedule).1) := by
  induction schedule generalizing s it with
  | nil => exact .nil
  | cons r rs ih =>
    by_cases hr : r = .resume i
    · subst hr
      obtain ⟨hreply, -, hafter⟩ := serve_resume_of_goesOn hi h
      rw [run, repliesTo_cons_of_eq, hreply]
      cases hcall : s.reader.call.1 with
      | error e =>
        rw [hcall] at hafter
        obtain ⟨n, hn⟩ := repliesTo_of_stops hafter rfl rs
        rw [hn]
        exact .failure e n
      | ok t =>
        rw [hcall] at hafter
        by_cases hkind : t.kind = .endOfInput
        · obtain ⟨n, hn⟩ := repliesTo_of_stops hafter (Iteration.stops_behind hkind) rs
          rw [hn]
          exact .ending hkind n
        · exact .token hkind (ih hafter (Iteration.goesOn_behind hkind))
    · rw [run, repliesTo_cons_of_ne hr]
      exact ih (iterators_serve hi hr) h

/-- At the end, an iterator that goes on hands the end token out once. -/
theorem repliesTo_of_done {t : Token} (hdone : s.reader.mode = .done t)
    (hkind : t.kind = .endOfInput) (hi : s.iterators[i]? = some it) (h : it.goesOn = true)
    (schedule : List Request) :
    ∃ n, repliesTo i (s.run schedule).1 <+: .answer (.ok t) :: List.replicate n .stop := by
  induction schedule generalizing s it with
  | nil => exact ⟨0, List.nil_prefix⟩
  | cons r rs ih =>
    by_cases hr : r = .resume i
    · subst hr
      obtain ⟨hreply, -, hafter⟩ := serve_resume_of_goesOn hi h
      rw [Reader.call_of_done hdone] at hreply hafter
      obtain ⟨n, hn⟩ := repliesTo_of_stops hafter (Iteration.stops_behind hkind) rs
      refine ⟨n, ?_⟩
      simp only [run, repliesTo_cons_of_eq, hreply, hn, List.prefix_rfl]
    · have hreader : (s.serve r).2.reader.mode = .done t := by
        rcases s.serve_cases r with ⟨-, hcalled⟩ | ⟨-, hleft⟩
        · rw [hcalled, Reader.call_of_done hdone]
          exact hdone
        · rw [hleft]
          exact hdone
      rw [run, repliesTo_cons_of_ne hr]
      exact ih hreader (iterators_serve hi hr) h

end

/-- A new iterator has its own number, and goes on. -/
theorem iterators_iterate (s : Session) :
    s.iterate.2.iterators[s.iterators.length]? = some .unstarted ∧
      Iteration.unstarted.goesOn = true := by
  simp [iterate, Iteration.goesOn]

/-- **Consumers share one reader.**  Whatever has been asked for, the answers so far, whoever got
them, are the first ones that plain calls of a new reader give, and the reader is where these calls
leave it; the end token comes again for ever.  An iterator that is opened then hands out tokens up
to an end token or an error, and nothing but stops from there on, whatever else is asked for; if the
end token has been handed out before, it hands it out once more and stops.  A request that is
answered by a stop leaves the reader alone. -/
theorem run_shared (source : Text) (settings : Settings) (text : Text) (schedule : List Request) :
    let fresh := Reader.start source settings.firstLine settings.logical text
    let run := (start source settings text).run schedule
    let s := run.2
    fresh.calls (answers run.1).length = (answers run.1, s.reader) ∧
      (∀ n t, .ok t ∈ (fresh.calls n).1 → t.kind = .endOfInput →
        ∀ m, (fresh.calls (n + m)).1 = (fresh.calls n).1 ++ List.replicate m (.ok t)) ∧
      (∀ later, Life (repliesTo s.iterators.length (s.run (.iterate :: later)).1)) ∧
      (∀ t, .ok t ∈ answers run.1 → t.kind = .endOfInput → ∀ later,
        ∃ n, repliesTo s.iterators.length (s.run (.iterate :: later)).1 <+:
          .answer (.ok t) :: List.replicate n .stop) ∧
      ∀ r, (s.serve r).1 = .stop → (s.serve r).2.reader = s.reader := by
  intro fresh run s
  have hfresh : fresh.Settled := Reader.settled_start _ _ _ _
  have hcalls : fresh.calls (answers run.1).length = (answers run.1, s.reader) :=
    answers_run (start source settings text) schedule
  obtain ⟨hnew, hgo⟩ := s.iterators_iterate
  have hopened : ∀ later, repliesTo s.iterators.length (s.run (.iterate :: later)).1 =
      repliesTo s.iterators.length (s.iterate.2.run later).1 := fun later =>
    repliesTo_cons_of_ne (by simp) _ _
  refine ⟨hcalls, fun n t ht hkind => hfresh.calls_of_end hkind ht, ?_, ?_,
    fun r => reader_of_stop⟩
  · intro later
    rw [hopened]
    exact life_run hnew hgo later
  · intro t ht hkind later
    have hmem : .ok t ∈ (fresh.calls (answers run.1).length).1 := by rwa [hcalls]
    have hdone : s.iterate.2.reader.mode = .done t := by
      have hmode := hfresh.mode_calls_of_end hkind hmem
      rwa [hcalls] at hmode
    rw [hopened]
    exact repliesTo_of_done hdone hkind hnew hgo later

end Session

end LoxLexer
