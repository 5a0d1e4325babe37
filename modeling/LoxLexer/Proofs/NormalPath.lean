import LoxLexer.Path

/-!
# Normal forms of paths

The normal form of a path is its root and its proper names, so it has no other
normal form.  It is as good as the path itself wherever the path leads to a
file: the names that are left out only say that something is a directory.

    normal p is `root p` and the names of `properNames p`               (normal_eq)
    normal (normal p) = normal p                                        (normal_normal)
    a tree has the same file at a path and at its normal form           (FileTree.steady_find)
-/

namespace LoxLexer

namespace Text

theorem exists_intercalate_eq_append (sep : Char) {names : List Text} (hne : names ≠ []) :
    ∃ u, [sep].intercalate names = u ++ names.getLast hne := by
  induction names with
  | nil => exact absurd rfl hne
  | cons name names ih =>
    cases names with
    | nil => exact ⟨[], by simp⟩
    | cons next names =>
      obtain ⟨u, hu⟩ := ih (List.cons_ne_nil _ _)
      refine ⟨name ++ [sep] ++ u, ?_⟩
      rw [List.intercalate_cons_cons, hu, List.getLast_cons (List.cons_ne_nil _ _),
        List.append_assoc _ u]

theorem intercalate_sublist {sep : Char} {us vs : List Text} (h : us.Sublist vs) :
    ([sep].intercalate us).Sublist ([sep].intercalate vs) := by
  induction h with
  | slnil => exact List.Sublist.refl _
  | @cons us vs v _ ih =>
    cases vs with
    | nil => simpa using ih.trans (List.nil_sublist v)
    | cons w ws =>
      rw [List.intercalate_cons_cons]
      exact ih.trans (List.sublist_append_right _ _)
  | @cons_cons us vs v hsub ih =>
    cases us with
    | nil =>
      cases vs with
      | nil => exact List.Sublist.refl _
      | cons w ws =>
        rw [List.intercalate_cons_cons, List.intercalate_singleton, List.append_assoc]
        exact List.sublist_append_left _ _
    | cons u us =>
      cases vs with
      | nil => cases hsub
      | cons w ws =>
        rw [List.intercalate_cons_cons, List.intercalate_cons_cons]
        exact ih.append_left _

/-- Only separators are lost. -/
theorem exists_piece_of_mem {sep c : Char} {t : Text} (hc : c ∈ t) (hne : c ≠ sep) :
    ∃ p ∈ pieces sep t, c ∈ p := by
  rw [← intercalate_pieces sep t] at hc
  generalize pieces sep t = names at hc ⊢
  induction names with
  | nil => cases hc
  | cons name names ih =>
    cases names with
    | nil => exact ⟨name, List.mem_cons_self, by simpa using hc⟩
    | cons next names =>
      rw [List.intercalate_cons_cons, List.append_assoc, List.mem_append, List.singleton_append,
        List.mem_cons] at hc
      rcases hc with hc | rfl | hc
      · exact ⟨name, List.mem_cons_self, hc⟩
      · exact absurd rfl hne
      · obtain ⟨p, hp, hcp⟩ := ih hc
        exact ⟨p, List.mem_cons_of_mem _ hp, hcp⟩

end Text

theorem Encoding.Utf8.length_encode_le {t u : Text} (h : t.Sublist u) :
    (encode t).length ≤ (encode u).length := by
  induction h with
  | slnil => exact Nat.le_refl _
  | cons c _ ih =>
    simp only [encode, List.flatMap_cons, List.length_append] at ih ⊢
    omega
  | cons_cons c _ ih =>
    simp only [encode, List.flatMap_cons, List.length_append] at ih ⊢
    omega

namespace Path

/-- The names that a normal form keeps. -/
def properNames (path : Text) : List Text := (Text.pieces '/' path).filter isProperName

/-- The normal form behind the root. -/
def body (path : Text) : Text := ['/'].intercalate (properNames path)

theorem proper_of_mem_properNames {path name : Text} (h : name ∈ properNames path) :
    name ≠ [] ∧ name ≠ ['.'] ∧ '/' ∉ name := by
  obtain ⟨hmem, hproper⟩ := List.mem_filter.mp h
  simp only [isProperName, Bool.and_eq_true, decide_eq_true_eq] at hproper
  exact ⟨hproper.1, hproper.2, Text.not_mem_of_mem_pieces hmem⟩

theorem normal_eq (path : Text) :
    normal path = if root path ++ body path = [] then ['.'] else root path ++ body path := by
  unfold normal body properNames
  split
  · next hnil => rw [if_pos hnil]
  · next hne => rw [if_neg hne]

/-! ## Roots -/

inductive IsRoot : Text → Prop
  | none : IsRoot []
  | one : IsRoot ['/']
  | two : IsRoot ['/', '/']

theorem isRoot_root (path : Text) : IsRoot (root path) := by
  unfold root
  split
  · exact .two
  · split
    · exact .one
    · exact .two
  · exact .one
  · exact .none

theorem head?_eq_slash_iff (path : Text) : path.head? = some '/' ↔ root path ≠ [] := by
  unfold root
  split
  · simp
  · split <;> simp
  · simp
  · next hne =>
    refine iff_of_false (fun h => ?_) (by simp)
    obtain ⟨t, rfl⟩ := List.head?_eq_some_iff.mp h
    exact hne t rfl

/-- A root ends in front of anything but a slash. -/
theorem root_append {r t : Text} (hr : IsRoot r) (ht : t.head? ≠ some '/') : root (r ++ t) = r := by
  cases t with
  | nil => cases hr <;> rfl
  | cons c t =>
    have hc : c ≠ '/' := fun h => ht (by rw [h]; rfl)
    cases hr <;> simp [root, hc]

theorem properNames_append {r : Text} (hr : IsRoot r) (t : Text) :
    properNames (r ++ t) = properNames t := by
  cases hr <;> simp [properNames, Text.pieces_sep, isProperName]

theorem filter_pieces_append {r : Text} (hr : IsRoot r) (t : Text) :
    (Text.pieces '/' (r ++ t)).filter (· ≠ []) = (Text.pieces '/' t).filter (· ≠ []) := by
  cases hr <;> simp [Text.pieces_sep]

/-- A path is its root and something behind it. -/
theorem exists_eq_root_append (path : Text) : ∃ t, path = root path ++ t := by
  unfold root
  split
  · exact ⟨[], rfl⟩
  · split
    · exact ⟨_, rfl⟩
    · exact ⟨_, rfl⟩
  · exact ⟨_, rfl⟩
  · exact ⟨path, rfl⟩

/-! ## Normal forms -/

theorem body_of_nil {path : Text} (h : properNames path = []) : body path = [] := by
  rw [body, h]
  rfl

theorem head?_body (path : Text) : (body path).head? ≠ some '/' := by
  cases hnames : properNames path with
  | nil => simp [body_of_nil hnames]
  | cons name names =>
    have hmem : name ∈ properNames path := hnames ▸ List.mem_cons_self
    have hproper := proper_of_mem_properNames hmem
    cases name with
    | nil => exact absurd rfl hproper.1
    | cons c name =>
      have hc : c ≠ '/' := fun h => hproper.2.2 (by simp [h])
      rw [body, hnames]
      cases names <;> simp [hc]

theorem properNames_body (path : Text) : properNames (body path) = properNames path := by
  by_cases hnames : properNames path = []
  · rw [body_of_nil hnames, hnames]
    rfl
  · have hpieces : Text.pieces '/' (body path) = properNames path :=
      Text.pieces_intercalate hnames fun name h => (proper_of_mem_properNames h).2.2
    rw [properNames, hpieces, properNames, List.filter_filter]
    simp

/-- A normal form is its own. -/
theorem normal_normal (path : Text) : normal (normal path) = normal path := by
  have hroot := isRoot_root path
  by_cases h : root path ++ body path = []
  · rw [normal_eq path, if_pos h]
    rfl
  · have hbody : body (root path ++ body path) = body path := by
      rw [body, properNames_append hroot, properNames_body, body]
    rw [normal_eq path, if_neg h, normal_eq, root_append hroot (head?_body path), hbody, if_neg h]

/-! ## Paths of files -/

section
variable {path : Text} (h : properNames path ≠ [])

include h

theorem exists_body_eq_append : ∃ u name, name ∈ properNames path ∧ body path = u ++ name := by
  obtain ⟨u, hu⟩ := Text.exists_intercalate_eq_append '/' h
  exact ⟨u, _, List.getLast_mem h, hu⟩

theorem normal_of_names : normal path = root path ++ body path := by
  obtain ⟨u, name, hname, hbody⟩ := exists_body_eq_append h
  have hne : name ≠ [] := (proper_of_mem_properNames hname).1
  rw [normal_eq, if_neg (by simp [hbody, hne])]

/-- A normal form is what is left of the path. -/
theorem normal_sublist : (normal path).Sublist path := by
  obtain ⟨t, ht⟩ := exists_eq_root_append path
  have hnames : properNames path = properNames t := by
    rw [ht]
    exact properNames_append (isRoot_root path) t
  have hbody : (body path).Sublist t := by
    have hkept : (properNames t).Sublist (Text.pieces '/' t) := List.filter_sublist
    have hsub := @Text.intercalate_sublist '/' _ _ hkept
    rw [Text.intercalate_pieces] at hsub
    rw [body, hnames]
    exact hsub
  have hsub := hbody.append_left (root path)
  rw [← ht] at hsub
  rw [normal_of_names h]
  exact hsub

/-- The names of a normal form are the proper ones. -/
theorem names_normal : names (normal path) = properNames path := by
  obtain ⟨u, name, hname, hbody⟩ := exists_body_eq_append h
  obtain ⟨hne, -, hslash⟩ := proper_of_mem_properNames hname
  have hlast : (normal path).getLast? ≠ some '/' := by
    obtain ⟨v, c, rfl⟩ := (List.eq_nil_or_concat name).resolve_left hne
    have hc : c ≠ '/' := fun hc => hslash (by simp [hc])
    rw [normal_of_names h, hbody]
    simp [hc]
  have hpieces : Text.pieces '/' (body path) = properNames path :=
    Text.pieces_intercalate h fun n hn => (proper_of_mem_properNames hn).2.2
  have hfilter : (Text.pieces '/' (normal path)).filter (· ≠ []) = properNames path := by
    rw [normal_of_names h, filter_pieces_append (isRoot_root path), hpieces, List.filter_eq_self]
    exact fun n hn => by simp [(proper_of_mem_properNames hn).1]
  rw [names, hfilter, if_neg hlast, List.append_nil]

theorem head?_normal : (normal path).head? = some '/' ↔ path.head? = some '/' := by
  rw [head?_eq_slash_iff, head?_eq_slash_iff, normal_of_names h,
    root_append (isRoot_root path) (head?_body path)]

end

theorem filter_names (path : Text) : (names path).filter (· ≠ ['.']) = properNames path := by
  have hslash : (if path.getLast? = some '/' then [['.']] else []).filter (· ≠ ['.']) =
      ([] : List Text) := by
    split <;> simp
  rw [names, List.filter_append, hslash, List.append_nil, List.filter_filter, properNames]
  refine List.filter_congr fun n _ => ?_
  rw [isProperName, Bool.and_comm]

theorem names_ne_nil {path : Text} (h : path ≠ []) : names path ≠ [] := by
  obtain ⟨u, c, rfl⟩ := (List.eq_nil_or_concat path).resolve_left h
  by_cases hc : c = '/'
  · simp [names, hc]
  · obtain ⟨p, hp, hmem⟩ := Text.exists_piece_of_mem (t := u.concat c) (by simp) hc
    have hne : p ≠ [] := List.ne_nil_of_mem hmem
    have hnames : p ∈ names (u.concat c) := by
      rw [names, List.mem_append, List.mem_filter]
      exact Or.inl ⟨hp, by simp [hne]⟩
    exact List.ne_nil_of_mem hnames

end Path

/-! ## Files -/

/-- What stands at a path as a file stands at its normal form, too. -/
def Files.Steady (files : Files) : Prop :=
  ∀ path content, files path = .file content → files (Path.normal path) = .file content

namespace FileTree

section
variable {tree : FileTree} {place : Place} {name : Text} {names : List Text} {content : Bytes}

theorem nodeAt_of_follow (h : tree.follow place (name :: names) = .file content) :
    tree.nodeAt place = .directory := by
  unfold follow at h
  split at h
  · cases h
  · next hdirectory => exact Classical.not_not.mp hdirectory

theorem follow_point (h : tree.nodeAt place = .directory) (names : List Text) :
    tree.follow place (['.'] :: names) = tree.follow place names := by
  rw [follow.eq_def]
  simp [h]

/-- Any other name on the way to a file leads to one place. -/
theorem exists_place_of_follow (h : tree.follow place (name :: names) = .file content)
    (hpoint : name ≠ ['.']) :
    ∃ next, ∀ names', tree.follow place (name :: names') = tree.follow next names' := by
  have hdirectory : ¬ tree.nodeAt place ≠ .directory := not_not_intro (nodeAt_of_follow h)
  unfold follow at h
  rw [if_neg hdirectory, if_neg hpoint] at h
  by_cases hparent : name = ['.', '.']
  · refine ⟨place.parent, fun names' => ?_⟩
    rw [follow.eq_def]
    simp only [if_neg hdirectory, if_neg hpoint, if_pos hparent]
  · rw [if_neg hparent] at h
    split at h
    · cases h
    · next hlength =>
      cases place with
      | outside => cases h
      | inside above =>
        simp only at h
        split at h
        · cases h
        · next hthere =>
          refine ⟨.inside (above ++ [name]), fun names' => ?_⟩
          rw [follow.eq_def]
          simp only [if_neg hdirectory, if_neg hpoint, if_neg hparent, if_neg hlength,
            if_neg hthere]

/-- Points on the way to a file say nothing more. -/
theorem follow_filter (h : tree.follow place names = .file content) :
    tree.follow place (names.filter (· ≠ ['.'])) = .file content := by
  induction names generalizing place with
  | nil => exact h
  | cons name names ih =>
    by_cases hpoint : name = ['.']
    · subst hpoint
      rw [follow_point (nodeAt_of_follow h)] at h
      rw [List.filter_cons_of_neg (by simp)]
      exact ih h
    · obtain ⟨next, hnext⟩ := exists_place_of_follow h hpoint
      rw [hnext] at h
      rw [List.filter_cons_of_pos (by simp [hpoint]), hnext]
      exact ih h

theorem find_eq_file_iff {path : Text} :
    tree.find path = .file content ↔
      (path ≠ [] ∧ '\x00' ∉ path ∧ (Encoding.Utf8.encode path).length ≤ pathLimit) ∧
        tree.follow (if path.head? = some '/' then .outside else .inside []) (Path.names path) =
          .file content := by
  unfold find
  by_cases hbad : (path = [] || path.contains '\x00') = true
  · rw [if_pos hbad]
    refine iff_of_false (by simp) ?_
    rintro ⟨⟨hne, hnul, -⟩, -⟩
    simp [hne, hnul] at hbad
  · rw [if_neg hbad]
    simp only [Bool.or_eq_true, decide_eq_true_eq, List.contains_iff_mem, not_or] at hbad
    by_cases hlong : (Encoding.Utf8.encode path).length > pathLimit
    · rw [if_pos hlong]
      refine iff_of_false (by simp) ?_
      rintro ⟨⟨-, -, hle⟩, -⟩
      omega
    · rw [if_neg hlong]
      exact (and_iff_right ⟨hbad.1, hbad.2, by omega⟩).symm

/-- A path to a file has a proper name. -/
theorem properNames_of_find {path : Text} (h : tree.find path = .file content) :
    Path.properNames path ≠ [] := by
  obtain ⟨⟨hne, -⟩, hfollow⟩ := find_eq_file_iff.mp h
  intro hnames
  have hfile := follow_filter hfollow
  rw [Path.filter_names, hnames, follow] at hfile
  obtain ⟨name, names, hcons⟩ := List.exists_cons_of_ne_nil (Path.names_ne_nil hne)
  rw [hcons] at hfollow
  rw [nodeAt_of_follow hfollow] at hfile
  cases hfile

end

/-- **Normal forms are as good.**  A tree has the same file at a path and at its normal form. -/
theorem steady_find (tree : FileTree) : Files.Steady tree.find := by
  intro path content h
  have hproper := properNames_of_find h
  obtain ⟨⟨hne, hnul, hlength⟩, hfollow⟩ := find_eq_file_iff.mp h
  have hsub := Path.normal_sublist hproper
  have hnames := follow_filter hfollow
  rw [Path.filter_names, ← Path.names_normal hproper] at hnames
  refine find_eq_file_iff.mpr ⟨⟨?_, fun hmem => hnul (hsub.subset hmem), ?_⟩, ?_⟩
  · obtain ⟨u, name, hname, hbody⟩ := Path.exists_body_eq_append hproper
    have hname' : name ≠ [] := (Path.proper_of_mem_properNames hname).1
    rw [Path.normal_of_names hproper, hbody]
    simp [hname']
  · exact Nat.le_trans (Encoding.Utf8.length_encode_le hsub) hlength
  · simpa only [Path.head?_normal hproper] using hnames

end FileTree

end LoxLexer
