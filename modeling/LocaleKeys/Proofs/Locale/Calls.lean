import LocaleKeys.Proofs.Locale.Defects
import LocaleKeys.Proofs.Locale.Lookup

/-!
# Calls of a catalogue

A catalogue is asked to load locales and to give messages, in any order. After every sequence of
calls it has no texts and is not loaded, or it holds the document of its locale
(`Catalogue.isCurrent_after`). A locale without a document is not loaded, and a template that cannot
be used is given back as it is.

Not every call returns, though: loading a document that is no text, or that has an integer with too
many digits, fails (`Catalogue.IsBroken`), and so may a message whose template has a placeholder
that fails (`Template.Escapes`). There is no other way to fail
(`Catalogue.calls_return_or_escape`) as long as the stack of the reader holds the document: how deep
objects and arrays may nest is left out (`Json.read`).
-/

namespace LocaleKeys

namespace Catalogue

/-- A call of a catalogue; all arguments of a message are texts. -/
inductive Call where
  | load (locale : Text)
  | message (path default : Text) (arguments : List (Text × Text))

section Loading

variable (host : Host) (directory : Text) (s : Store) (locale : Text) (c : Catalogue)

def HoldsJson (v : Json) : Prop :=
  ∃ cs, Document.HoldsText host s (documentPath directory locale) cs ∧
    Json.read (Text.universalLines cs) = .ok v

/-- The failures with which loading a locale ends: its document is no text, or an integer in it has
too many digits. -/
inductive IsBroken : Failure → Prop
  | undecoded (bytes : Bytes) (f : Utf8.DecodeFault)
      (hcontent : host.content (documentPath directory locale) s = .ok bytes)
      (h : Utf8.decode bytes = .error f) : IsBroken (.decoding f)
  | integer (cs : List Char) (n : Nat)
      (htext : Document.HoldsText host s (documentPath directory locale) cs)
      (h : Json.read (Text.universalLines cs) = .error (.tooManyDigits n)) :
      IsBroken (.value (.integerDigits n))

theorem document_cases :
    (∃ v, HoldsJson host directory s locale v) ∨ HasNoDocument host directory locale s ∨
      ∃ f, IsBroken host directory s locale f := by
  cases hcontent : host.content (documentPath directory locale) s with
  | error f =>
      rcases (host.exists_content_eq_error_iff _ s).1 ⟨f, hcontent⟩ with hfile | ⟨r, hr⟩
      · exact .inr (.inl (.absent hfile))
      · exact .inr (.inl (.refused r hr))
  | ok bytes =>
      cases hdecode : Utf8.decode bytes with
      | error f => exact .inr (.inr ⟨_, .undecoded bytes f hcontent hdecode⟩)
      | ok cs =>
          have htext : Document.HoldsText host s (documentPath directory locale) cs :=
            ⟨bytes, hcontent, hdecode⟩
          cases hread : Json.read (Text.universalLines cs) with
          | ok v => exact .inl ⟨v, cs, htext, hread⟩
          | error e =>
              cases e with
              | syntaxError m place => exact .inr (.inl (.notJson cs m place htext hread))
              | tooManyDigits n => exact .inr (.inr ⟨_, .integer cs n htext hread⟩)

theorem load_of_holdsJson (v : Json) (h : HoldsJson host directory s locale v) :
    load host directory locale s c = .ok ⟨v, locale, true⟩ := by
  obtain ⟨cs, htext, hread⟩ := h
  obtain ⟨bytes, hbytes, hcs⟩ := htext
  rw [documentPath] at hbytes
  simp only [load, hbytes, hcs, hread]

theorem load_of_isBroken (f : Failure) (h : IsBroken host directory s locale f) :
    load host directory locale s c = .error f := by
  cases h with
  | undecoded bytes f hcontent h =>
      rw [documentPath] at hcontent
      simp only [load, hcontent, h]
  | integer cs n htext h =>
      obtain ⟨bytes, hbytes, hcs⟩ := htext
      rw [documentPath] at hbytes
      simp only [load, hbytes, hcs, h]

end Loading

section Messages

variable (c : Catalogue) (path default : Text) (arguments : List (Text × Text))

def HasTakenName : Prop := ∃ a ∈ arguments, a.1 ∈ takenNames

instance decidableHasTakenName : Decidable (HasTakenName arguments) :=
  inferInstanceAs (Decidable (∃ a ∈ arguments, a.1 ∈ takenNames))

/-- The failures with which a message ends: an argument has a taken name, or a placeholder of the
template fails. -/
inductive MessageEscapes : Failure → Prop
  | taken (name : Text) (hname : name ∈ takenNames) (h : ∃ a ∈ arguments, a.1 = name) :
      MessageEscapes (.placeholder (.argumentTwice name))
  | template (f : Failure)
      (h : Template.Escapes (Template.ofTexts arguments) (c.text path default) f) : MessageEscapes f

theorem find?_takenNames_eq_none_iff :
    (Template.ofTexts arguments).find? (takenNames.contains ·.1) = none ↔
      ¬ HasTakenName arguments := by
  simp [Template.ofTexts, HasTakenName]

theorem message_of_not_hasTakenName (h : ¬ HasTakenName arguments) :
    c.message path default (Template.ofTexts arguments) =
      Template.fill (Template.ofTexts arguments) (c.text path default) := by
  rw [message, (find?_takenNames_eq_none_iff arguments).2 h]

theorem messageEscapes_of_message_eq_error (f : Failure)
    (h : c.message path default (Template.ofTexts arguments) = .error f) :
    MessageEscapes c path default arguments f := by
  rw [message] at h
  split at h
  · next name v hfind =>
      obtain rfl := Except.error.inj h
      have htaken := List.find?_some hfind
      obtain ⟨a, ha, hav⟩ := List.mem_map.1 (List.mem_of_find?_eq_some hfind)
      exact .taken name (List.contains_iff_mem.1 htaken) ⟨a, ha, congrArg Prod.fst hav⟩
  · exact .template f (Template.escapes_of_fill_eq_error arguments _ f h)

theorem message_of_expand (hnames : ¬ HasTakenName arguments) (hsome : arguments ≠ []) (t : Text)
    (h : Template.expand (Template.ofTexts arguments) Template.nesting (c.text path default) =
      .ok t) :
    c.message path default (Template.ofTexts arguments) = .ok t := by
  have hargs : (Template.ofTexts arguments).isEmpty = false := by
    simpa [Template.ofTexts] using hsome
  rw [message_of_not_hasTakenName c path default arguments hnames, Template.fill, hargs,
    if_neg Bool.false_ne_true, h]

/-- Without arguments, or with arguments that it cannot be used with, a template is given back as it
is. -/
theorem message_of_unusable (hnames : ¬ HasTakenName arguments)
    (h : arguments = [] ∨ Template.expand (Template.ofTexts arguments) Template.nesting
      (c.text path default) = .error .unusable) :
    c.message path default (Template.ofTexts arguments) = .ok (c.text path default) := by
  rw [message_of_not_hasTakenName c path default arguments hnames, Template.fill]
  split
  · rfl
  · next hsome =>
      rcases h with rfl | h
      · exact absurd rfl hsome
      · rw [h]

end Messages

section Calls

variable (host : Host) (directory : Text) (s : Store)

/-- What a call returns, nothing if a locale is loaded, and what it leaves. A call that fails leaves
the catalogue as it was. -/
def answer (c : Catalogue) : Call → Except Failure (Option Text) × Catalogue
  | .load locale =>
      match load host directory locale s c with
      | .ok c' => (.ok none, c')
      | .error f => (.error f, c)
  | .message path default arguments =>
      ((c.message path default (Template.ofTexts arguments)).map some, c)

/-- What a sequence of calls leaves, also where some of them fail. -/
def after (c : Catalogue) (calls : List Call) : Catalogue :=
  calls.foldl (fun c call => (c.answer host directory s call).2) c

/-- Whether a catalogue has no texts and is not loaded, or is loaded and holds the document of its
locale. -/
inductive IsCurrent (c : Catalogue) : Prop
  | cleared (hloaded : c.isLoaded = false) (htexts : c.texts = .obj [])
  | loaded (hloaded : c.isLoaded = true) (htexts : HoldsJson host directory s c.locale c.texts)

theorem isCurrent_cleared (c : Catalogue) : c.cleared.IsCurrent host directory s := .cleared rfl rfl

section Load

variable (c : Catalogue) (locale : Text)

theorem answer_load_of_holdsJson (v : Json) (h : HoldsJson host directory s locale v) :
    c.answer host directory s (.load locale) = (.ok none, ⟨v, locale, true⟩) := by
  rw [answer, load_of_holdsJson host directory s locale c v h]

theorem answer_load_of_hasNoDocument (h : HasNoDocument host directory locale s) :
    c.answer host directory s (.load locale) = (.ok none, c.cleared) := by
  rw [answer, load_of_hasNoDocument host directory locale s c h]

theorem answer_load_of_isBroken (f : Failure) (h : IsBroken host directory s locale f) :
    c.answer host directory s (.load locale) = (.error f, c) := by
  rw [answer, load_of_isBroken host directory s locale c f h]

end Load

/-- A call keeps a catalogue current, whether or not it returns. -/
theorem IsCurrent.answer {c : Catalogue} (h : c.IsCurrent host directory s) (call : Call) :
    (c.answer host directory s call).2.IsCurrent host directory s := by
  cases call with
  | load locale =>
      rcases document_cases host directory s locale with ⟨v, hv⟩ | hnone | ⟨f, hf⟩
      · rw [answer_load_of_holdsJson host directory s c locale v hv]
        exact .loaded rfl hv
      · rw [answer_load_of_hasNoDocument host directory s c locale hnone]
        exact isCurrent_cleared host directory s c
      · rw [answer_load_of_isBroken host directory s c locale f hf]
        exact h
  | message path default arguments => exact h

theorem isCurrent_after {c : Catalogue} (h : c.IsCurrent host directory s) (calls : List Call) :
    (c.after host directory s calls).IsCurrent host directory s := by
  induction calls generalizing c with
  | nil => exact h
  | cons call calls ih => exact ih (h.answer host directory s call)

structure AnswersLoad (c : Catalogue) (locale : Text) : Prop where
  /-- Loading returns unless the document is broken. -/
  returns : (∃ f, IsBroken host directory s locale f) ∨
    (c.answer host directory s (.load locale)).1 = .ok none
  /-- Without a document nothing is loaded. -/
  absent : HasNoDocument host directory locale s →
    c.answer host directory s (.load locale) = (.ok none, c.cleared)
  /-- A broken document changes nothing. -/
  broken : ∀ f, IsBroken host directory s locale f →
    c.answer host directory s (.load locale) = (.error f, c)

theorem answersLoad (c : Catalogue) (locale : Text) : c.AnswersLoad host directory s locale where
  returns := by
    rcases document_cases host directory s locale with ⟨v, hv⟩ | hnone | hbroken
    · exact .inr (by rw [answer_load_of_holdsJson host directory s c locale v hv])
    · exact .inr (by rw [answer_load_of_hasNoDocument host directory s c locale hnone])
    · exact .inl hbroken
  absent := answer_load_of_hasNoDocument host directory s c locale
  broken := answer_load_of_isBroken host directory s c locale

structure AnswersMessage (c : Catalogue) (path default : Text) (arguments : List (Text × Text)) :
    Prop where
  /-- A message changes nothing. -/
  kept : (c.answer host directory s (.message path default arguments)).2 = c
  /-- A message returns unless it fails in one of the ways that are told. -/
  returns : (∃ f, MessageEscapes c path default arguments f ∧
      (c.answer host directory s (.message path default arguments)).1 = .error f) ∨
    ∃ t, (c.answer host directory s (.message path default arguments)).1 = .ok (some t)
  /-- A template that can be used is given with the arguments in place. -/
  filled : ¬ HasTakenName arguments → arguments ≠ [] → ∀ t,
    Template.expand (Template.ofTexts arguments) Template.nesting (c.text path default) = .ok t →
    (c.answer host directory s (.message path default arguments)).1 = .ok (some t)
  /-- A template that cannot be used is given back as it is. -/
  unusable : ¬ HasTakenName arguments →
    (arguments = [] ∨ Template.expand (Template.ofTexts arguments) Template.nesting
      (c.text path default) = .error .unusable) →
    (c.answer host directory s (.message path default arguments)).1 =
      .ok (some (c.text path default))
  /-- Asking a text for an item by a name fails. -/
  item : ¬ HasTakenName arguments →
    ∀ before after name key u, Template.IsLiteral before → Template.IsArgumentName name →
      Template.IsItemName key → (Template.ofTexts arguments).lookup name = some (.str u) →
      c.text path default = before ++ Template.openBrace ::
        (name ++ .scalar '[' :: (key ++ .scalar ']' :: Template.closeBrace :: after)) →
      (c.answer host directory s (.message path default arguments)).1 =
        .error (.placeholder (.textIndex (Value.str u).typeName))

theorem answersMessage (c : Catalogue) (path default : Text) (arguments : List (Text × Text)) :
    c.AnswersMessage host directory s path default arguments where
  kept := rfl
  returns := by
    cases hmessage : c.message path default (Template.ofTexts arguments) with
    | error f =>
        refine .inl ⟨f, messageEscapes_of_message_eq_error c path default arguments f hmessage, ?_⟩
        rw [answer, hmessage]
        rfl
    | ok t =>
        refine .inr ⟨t, ?_⟩
        rw [answer, hmessage]
        rfl
  filled hnames hsome t h := by
    rw [answer, message_of_expand c path default arguments hnames hsome t h]
    rfl
  unusable hnames h := by
    rw [answer, message_of_unusable c path default arguments hnames h]
    rfl
  item hnames before after name key u hbefore hname hkey hlookup htext := by
    rw [answer, message_of_not_hasTakenName c path default arguments hnames, htext,
      Template.fill_item_eq_error hname hkey before after hbefore _ u hlookup]
    rfl

/-- After any calls a catalogue is not loaded and has no texts, or it holds the document of its
locale. Then every call still returns, except for loading a broken document, which leaves the
catalogue as it was, and for a message with an argument whose name is taken or with a placeholder
that fails. A locale without a document leaves a catalogue that is not loaded, and a template that
cannot be used is given back as it is. -/
theorem calls_return_or_escape (c : Catalogue) (hc : c.IsCurrent host directory s)
    (calls : List Call) :
    (c.after host directory s calls).IsCurrent host directory s ∧
    (∀ locale, (c.after host directory s calls).AnswersLoad host directory s locale) ∧
    ∀ path default arguments,
      (c.after host directory s calls).AnswersMessage host directory s path default arguments :=
  ⟨isCurrent_after host directory s hc calls, answersLoad host directory s _,
    answersMessage host directory s _⟩

/-- A store with the document of one locale, in which a template asks for an item by a name and
another one has no end, and with a document that is no text. -/
def italianStore : Store :=
  ⟨[(["loc"], .directory 0o755),
    (["loc", "de.json"], .file (Utf8.encodeChars
      "\x7b\"item\": \"Von \x7bwer[name]\x7d\", \"open\": \"\x7bwer\"\x7d".toList) 0o644),
    (["loc", "it.json"], .file [0xff] 0o644)]⟩

theorem calls_return_or_escape_italian :
    (english.cleared).IsCurrent bareHost "/loc" italianStore ∧
    ∃ c, c = english.cleared.after bareHost "/loc" italianStore [.load "de", .load "it"] ∧
      c.isLoaded = true ∧
      c.answer bareHost "/loc" italianStore (.load "it") =
        (.error (.decoding ⟨0, 0, 0xff, .startByte⟩), c) ∧
      c.answer bareHost "/loc" italianStore (.load "fr") = (.ok none, c.cleared) ∧
      (c.answer bareHost "/loc" italianStore (.message "item" [] [("wer", "mir")])).1 =
        .error (.placeholder (.textIndex "str")) ∧
      (c.answer bareHost "/loc" italianStore (.message "open" [] [("wer", "mir")])).1 =
        .ok (some "\x7bwer") := by
  have hc : english.cleared.IsCurrent bareHost "/loc" italianStore := .cleared rfl rfl
  obtain ⟨-, hload, hmessage⟩ := calls_return_or_escape bareHost "/loc" italianStore english.cleared
    hc [.load "de", .load "it"]
  have hbroken :
      IsBroken bareHost "/loc" italianStore "it" (.decoding ⟨0, 0, 0xff, .startByte⟩) := by
    refine .undecoded [0xff] _ ?_ rfl
    decide +kernel
  have hitem := (hmessage "item" [] [("wer", "mir")]).item (by decide) "Von " [] "wer" "name" "mir"
    (by decide) (by decide) ⟨by decide, by decide, by decide⟩ rfl (by decide +kernel)
  have hopen := (hmessage "open" [] [("wer", "mir")]).unusable (by decide)
    (.inr (eq_error_of_error?_eq_some _ _ (by decide +kernel)))
  have htext : (english.cleared.after bareHost "/loc" italianStore [.load "de", .load "it"]).text
      "open" [] = "\x7bwer" := by decide +kernel
  refine ⟨hc, _, rfl, by decide +kernel, (hload "it").broken _ hbroken,
    (hload "fr").absent (.absent (by decide +kernel)), hitem, ?_⟩
  rw [hopen, htext]

/-- Neither loading a locale nor giving a message returns in every case. -/
theorem not_every_call_returns :
    (¬ ∀ (host : Host) (directory : Text) (s : Store) (c : Catalogue) (locale : Text),
      ∃ r, (c.answer host directory s (.load locale)).1 = .ok r) ∧
    ¬ ∀ (host : Host) (directory : Text) (s : Store) (c : Catalogue) (path default : Text)
      (arguments : List (Text × Text)), ¬ HasTakenName arguments →
      ∃ r, (c.answer host directory s (.message path default arguments)).1 = .ok r := by
  constructor
  · intro h
    obtain ⟨r, hr⟩ := h bareHost "/loc" italianStore english "it"
    have hload := eq_error_of_error?_eq_some
      (english.answer bareHost "/loc" italianStore (.load "it")).1
      (.decoding ⟨0, 0, 0xff, .startByte⟩) (by decide +kernel)
    exact nomatch hload.symm.trans hr
  · intro h
    obtain ⟨r, hr⟩ := h bareHost "/loc" italianStore english "\x7bx[y]\x7d" [] [("x", "z")]
      (by decide)
    have hmessage := eq_error_of_error?_eq_some
      (english.answer bareHost "/loc" italianStore (.message "\x7bx[y]\x7d" [] [("x", "z")])).1
      (.placeholder (.textIndex "str")) (by decide +kernel)
    exact nomatch hmessage.symm.trans hr

end Calls

end Catalogue

end LocaleKeys
