import LoxLexer.Proofs.Utf8
import LoxLexer.Reader
import LoxLexer.Scan

/-!
# Sources of every kind

A text may be given as it is, as its bytes, or by a reader that yields one of
these.  In UTF-8 all of them are the same source, and no other bytes are a
source at all.

    bytes are loaded as the text that they encode, or are unreadable     (load_bytes_utf8)
    the forms of a text are scanned alike                                (utf8_sources)
-/

namespace LoxLexer

theorem Encoding.decode_utf8 {e : Encoding} (he : e.name = "utf-8".toList) (bs : Bytes) :
    e.decode bs = (Encoding.Utf8.decode bs).mapError .malformed := by
  have hnul : '\x00' ∉ e.name := by
    rw [he]
    decide
  have hcodec : Codec.ofName? e.name = some .utf8 := by
    rw [he]
    decide
  by_cases hbs : bs = []
  · subst hbs
    exact decode_nil hnul
  · rw [decode, if_neg hnul, if_neg hbs, hcodec]
    rfl

namespace Input

/-- The forms of a text: the text or its bytes, given at once or by a reader. -/
def forms (t : Text) : List Input :=
  [.content (.text t), .content (.bytes (Encoding.Utf8.encode t)),
   .content (.mutableBytes (Encoding.Utf8.encode t)), .reader (.ok (.text t)),
   .reader (.ok (.bytes (Encoding.Utf8.encode t)))]

/-- The ways in which bytes may be given. -/
def ofBytes (bs : Bytes) : List Input :=
  [.content (.bytes bs), .content (.mutableBytes bs), .reader (.ok (.bytes bs)),
   .reader (.ok (.mutableBytes bs))]

theorem load_of_mem_ofBytes (encoding : Encoding) (location : Location) {bs : Bytes}
    {input : Input} (h : input ∈ ofBytes bs) :
    input.load encoding location = (content (.bytes bs)).load encoding location := by
  simp only [ofBytes, List.mem_cons, List.not_mem_nil, or_false] at h
  rcases h with rfl | rfl | rfl | rfl <;> rfl

section
variable {e : Encoding} (he : e.name = "utf-8".toList)

include he

theorem load_bytes_utf8 (location : Location) (bs : Bytes) :
    (content (.bytes bs)).load e location =
      match Encoding.Utf8.decode bs with
      | .ok t => .ok (dropMark t)
      | .error m => .error (unreadable location m.message) := by
  have hdecode : decode e location (.bytes bs) =
      match Encoding.Utf8.decode bs with
      | .ok t => .ok t
      | .error m => .error (unreadable location m.message) := by
    rw [decode, decodeBytes, Encoding.decode_utf8 he]
    cases Encoding.Utf8.decode bs <;> rfl
  show (decode e location (.bytes bs) >>= fun t => pure (dropMark t)) = _
  rw [hdecode]
  cases Encoding.Utf8.decode bs <;> rfl

theorem load_encode_utf8 (location : Location) (t : Text) :
    (content (.bytes (Encoding.Utf8.encode t))).load e location = .ok (dropMark t) := by
  rw [load_bytes_utf8 he, Encoding.Utf8.decode_encode]

theorem load_of_mem_forms (location : Location) {t : Text} {input : Input} (h : input ∈ forms t) :
    input.load e location = .ok (dropMark t) := by
  simp only [forms, List.mem_cons, List.not_mem_nil, or_false] at h
  rcases h with rfl | rfl | rfl | rfl | rfl
  · exact load_text e location t
  · exact load_encode_utf8 he location t
  · exact load_encode_utf8 he location t
  · exact load_text e location t
  · exact load_encode_utf8 he location t

end

theorem dropMark_mark_cons (t : Text) : dropMark (byteOrderMark :: t) = t := by
  rw [dropMark, if_pos rfl]

/-- Of a text only one mark is dropped, so the text is what is left or that behind a mark. -/
theorem eq_dropMark_or (t : Text) : t = dropMark t ∨ t = byteOrderMark :: dropMark t := by
  by_cases h : t.head? = some byteOrderMark
  · obtain ⟨r, rfl⟩ := List.head?_eq_some_iff.mp h
    exact Or.inr (by rw [dropMark_mark_cons])
  · exact Or.inl (dropMark_of_head?_ne h).symm

section
variable {e : Encoding} (he : e.name = "utf-8".toList)

include he

/-- Bytes that are loaded are those of the text, with or without a mark in front. -/
theorem encode_of_load {location : Location} {bs : Bytes} {t : Text}
    (h : (content (.bytes bs)).load e location = .ok t) :
    Encoding.Utf8.encode t = bs ∨ Encoding.Utf8.encode (byteOrderMark :: t) = bs := by
  rw [load_bytes_utf8 he] at h
  cases hdecode : Encoding.Utf8.decode bs with
  | error m =>
    rw [hdecode] at h
    cases h
  | ok s =>
    rw [hdecode] at h
    obtain rfl : dropMark s = t := Except.ok.inj h
    rcases eq_dropMark_or s with hs | hs
    · rw [← hs]
      exact Or.inl (Encoding.Utf8.decode_eq_ok_iff.mp hdecode)
    · rw [← hs]
      exact Or.inr (Encoding.Utf8.decode_eq_ok_iff.mp hdecode)

/-- Bytes are unreadable just when they encode no text. -/
theorem unreadable_iff (location : Location) (bs : Bytes) :
    (∃ reason, (content (.bytes bs)).load e location = .error (unreadable location reason)) ↔
      ∀ t, Encoding.Utf8.encode t ≠ bs := by
  rw [← Encoding.Utf8.exists_decode_eq_error_iff, load_bytes_utf8 he]
  constructor
  · rintro ⟨reason, h⟩
    cases hdecode : Encoding.Utf8.decode bs with
    | ok t =>
      rw [hdecode] at h
      cases h
    | error m => exact ⟨m, rfl⟩
  · rintro ⟨m, hdecode⟩
    rw [hdecode]
    exact ⟨m.message, rfl⟩

theorem load_ok_or_unreadable (location : Location) (bs : Bytes) :
    (∃ t, (content (.bytes bs)).load e location = .ok t) ∨
      ∃ reason, (content (.bytes bs)).load e location = .error (unreadable location reason) := by
  rw [load_bytes_utf8 he]
  cases Encoding.Utf8.decode bs with
  | ok t => exact Or.inl ⟨_, rfl⟩
  | error m => exact Or.inr ⟨_, rfl⟩

end

end Input

/-- **Sources in UTF-8.**  The forms of a text give the same reader and the same scan, those of the
text without the one mark that may stand in front; a mark before a text that has none changes
nothing; and bytes are loaded as the text that they encode, with or without a mark, or else they
encode no text and are unreadable at the place that is given, be its line written in a diagnostic
or too long for that.  The bytes of a text are those of the standard library. -/
theorem utf8_sources (codecs : Encoding.Codecs) (source : Text) (first : Int) (logical : Bool) :
    let encoding : Encoding := .ofCodecs codecs "utf-8".toList
    let settings : Settings := ⟨first, logical, encoding⟩
    let location : Location := ⟨source, first⟩
    let load := Input.load encoding location
    let refused : Text → Failure := fun reason =>
      if Number.isWritable first then .diagnostic ⟨.unreadable reason, some location, none⟩
      else .lineTooLong
    (∀ t, ∀ input ∈ Input.forms t,
      load input = .ok (Input.dropMark t) ∧
        Reader.ofInput source settings input =
          .ok (Reader.start source first logical (Input.dropMark t)) ∧
        ∀ includeComments, Scan.run includeComments source settings input =
          Scan.ofText includeComments source settings (Input.dropMark t)) ∧
    (∀ t, Input.dropMark (Input.byteOrderMark :: t) = t) ∧
    (∀ t : Text, t.head? ≠ some Input.byteOrderMark →
      Input.dropMark t = t ∧
      ∀ input ∈ Input.forms t, ∀ marked ∈ Input.forms (Input.byteOrderMark :: t),
        Reader.ofInput source settings marked = Reader.ofInput source settings input ∧
          ∀ includeComments, Scan.run includeComments source settings marked =
            Scan.run includeComments source settings input) ∧
    (∀ t, Encoding.Utf8.encode t = t.flatMap String.utf8EncodeChar) ∧
    ∀ bs, ∀ input ∈ Input.ofBytes bs,
      ((∃ t, load input = .ok t ∧
          (Encoding.Utf8.encode t = bs ∨ Encoding.Utf8.encode (Input.byteOrderMark :: t) = bs)) ∨
        ∃ reason, load input = .error (refused reason)) ∧
      ((∃ reason, load input = .error (refused reason)) ↔
        ∀ t, Encoding.Utf8.encode t ≠ bs) := by
  intro encoding settings location load refused
  have he : encoding.name = "utf-8".toList := rfl
  have hopen : ∀ {t : Text} {input : Input}, load input = .ok t →
      Reader.ofInput source settings input = .ok (Reader.start source first logical t) ∧
        ∀ includeComments, Scan.run includeComments source settings input =
          Scan.ofText includeComments source settings t := by
    intro t input h
    have hload : input.load settings.encoding ⟨source, settings.firstLine⟩ = .ok t := h
    refine ⟨?_, fun includeComments => ?_⟩
    · rw [Reader.ofInput, hload]
      rfl
    · rw [Scan.run, hload]
  have hforms : ∀ {t : Text}, ∀ input ∈ Input.forms t, load input = .ok (Input.dropMark t) :=
    fun input hinput => Input.load_of_mem_forms he location hinput
  refine ⟨?_, Input.dropMark_mark_cons, ?_, Encoding.Utf8.encode_eq_flatMap, ?_⟩
  · intro t input hinput
    exact ⟨hforms input hinput, hopen (hforms input hinput)⟩
  · intro t ht
    refine ⟨Input.dropMark_of_head?_ne ht, fun input hinput marked hmarked => ?_⟩
    obtain ⟨hreader, hscan⟩ := hopen (hforms input hinput)
    obtain ⟨hreader', hscan'⟩ := hopen (hforms marked hmarked)
    rw [Input.dropMark_of_head?_ne ht] at hreader hscan
    rw [Input.dropMark_mark_cons] at hreader' hscan'
    exact ⟨hreader'.trans hreader.symm, fun keep => (hscan' keep).trans (hscan keep).symm⟩
  · intro bs input hinput
    have hload : load input = load (.content (.bytes bs)) :=
      Input.load_of_mem_ofBytes _ location hinput
    rw [hload]
    refine ⟨?_, Input.unreadable_iff he location bs⟩
    rcases Input.load_ok_or_unreadable he location bs with ⟨t, ht⟩ | hreason
    · exact Or.inl ⟨t, ht, Input.encode_of_load he ht⟩
    · exact Or.inr hreason

end LoxLexer
