import LocaleKeys.Proofs.CommandLine.Contract
import LocaleKeys.Proofs.Config.Entries
import LocaleKeys.Proofs.Document.Defects

/-!
# Option files that give no options

Reading an option file ends with options, with a problem that is reported (`IsReported`), or with a
failure that nothing turns into one (`Escapes`): the text or a value cannot be made out of what
stands in the file, or the library that reads YAML raises something else than the fault it has for
documents. `read_eq_error_cases` goes through all steps of reading, and no step has another way to
fail, as long as the stack of the reader holds the document: how deep it may nest is left out
(`Json.read`). What a YAML document comes to is up to the host, whatever its library does. A command
tells of the first kind of failure and ends with 1; the second kind ends the command
(`Session.option_files_are_reported_or_escape`).
-/

namespace LocaleKeys

namespace FileOptions

section Reading

variable (host : Host) (path : Text) (s : Store)

/-- Whether a value is what stands in the file at a path. -/
inductive HoldsValue : Value → Prop
  | json (cs : List Char) (v : Json) (hname : isYaml path = false)
      (htext : Document.HoldsText host s path cs)
      (h : Json.read (Text.universalLines cs) = .ok v) : HoldsValue (.ofJson v)
  | yaml (bytes : Bytes) (v : Value) (hname : isYaml path = true)
      (hcontent : host.content path s = .ok bytes) (h : host.yaml bytes = .ok v) : HoldsValue v

/-- What is reported about an option file without options: the system refuses it, its text has no
value, or the value is no mapping. -/
inductive IsReported : Problem → Prop
  | unread (e : SystemError) (h : host.content path s = .error (.system e)) :
      IsReported (.configUnread path e)
  | unreadYaml (bytes : Bytes) (e : SystemError) (hname : isYaml path = true)
      (hcontent : host.content path s = .ok bytes) (h : host.yaml bytes = .error (.refused e)) :
      IsReported (.configUnread path e)
  | notJson (cs : List Char) (m : Json.Mistake) (place : Json.Place) (hname : isYaml path = false)
      (htext : Document.HoldsText host s path cs)
      (h : Json.read (Text.universalLines cs) = .error (.syntaxError m place)) :
      IsReported (.configSyntax path (.json m place))
  | notYaml (bytes : Bytes) (message : Text) (hname : isYaml path = true)
      (hcontent : host.content path s = .ok bytes)
      (h : host.yaml bytes = .error (.invalid message)) :
      IsReported (.configSyntax path (.yaml message))
  | root (v : Value) (hvalue : HoldsValue host path s v) (hnull : v ≠ .null)
      (h : ∀ entries, v ≠ .dict entries) : IsReported (.configRoot path v.typeName)

/-- What reading an option file fails with and is not reported: its path is no name, its bytes are
no text, an integer in it has too many digits to be read, or to be shown where it is a key, or the
library that reads YAML raises something of its own. -/
inductive Escapes : Failure → Prop
  | name (f : NameFault) (h : host.content path s = .error (.name f)) : Escapes (.ofName f)
  | undecoded (bytes : Bytes) (f : Utf8.DecodeFault) (hname : isYaml path = false)
      (hcontent : host.content path s = .ok bytes) (h : Utf8.decode bytes = .error f) :
      Escapes (.decoding f)
  | integer (cs : List Char) (n : Nat) (hname : isYaml path = false)
      (htext : Document.HoldsText host s path cs)
      (h : Json.read (Text.universalLines cs) = .error (.tooManyDigits n)) :
      Escapes (.value (.integerDigits n))
  | library (bytes : Bytes) (kind message : Text) (hname : isYaml path = true)
      (hcontent : host.content path s = .ok bytes)
      (h : host.yaml bytes = .error (.raised kind message)) : Escapes (.library kind message)
  | key (entries : List (Value × Value)) (hvalue : HoldsValue host path s (.dict entries))
      (h : ∃ e ∈ effective entries, e.1.IsLongInteger) : Escapes (.value .integerShown)

theorem IsReported.kind_eq (p : Problem) (h : IsReported host path s p) :
    p.kind = .missingConfiguration := by
  cases h <;> rfl

theorem Escapes.ne_problem (f : Failure) (h : Escapes host path s f) (p : Problem) :
    f ≠ .problem p := by
  cases h with
  | name f h => cases f <;> exact fun h => nomatch h
  | _ => exact fun h => nomatch h

def ofValue (v : Value) : Except Failure FileOptions :=
  match v with
  | .null => .ok {}
  | .dict entries => ofEntries path entries
  | v => .error (.problem (.configRoot path v.typeName))

def ofYaml : Except YamlFault Value → Except Failure Value
  | .ok v => .ok v
  | .error (.refused e) => .error (.problem (.configUnread path e))
  | .error (.invalid message) => .error (.problem (.configSyntax path (.yaml message)))
  | .error (.raised kind message) => .error (.library kind message)

def ofJson : Except Json.ReadFault Json → Except Failure Value
  | .ok v => .ok (.ofJson v)
  | .error (.syntaxError m place) => .error (.problem (.configSyntax path (.json m place)))
  | .error (.tooManyDigits n) => .error (.value (.integerDigits n))

theorem parse_of_isYaml (bytes : Bytes) (h : isYaml path = true) :
    parse host path bytes = ofYaml path (host.yaml bytes) >>= ofValue path := by
  have hread : readYaml host path bytes = ofYaml path (host.yaml bytes) := by
    delta readYaml
    generalize host.yaml bytes = x
    rfl
  rw [parse, if_pos h, hread]
  refine congrArg _ (funext fun v => ?_)
  cases v <;> rfl

theorem parse_of_not_isYaml (bytes : Bytes) (h : isYaml path = false) :
    parse host path bytes = ((Utf8.decode bytes).mapError Failure.decoding >>= fun cs =>
      ofJson path (Json.read (Text.universalLines cs))) >>= ofValue path := by
  have hread : readJson path bytes = (Utf8.decode bytes).mapError Failure.decoding >>= fun cs =>
      ofJson path (Json.read (Text.universalLines cs)) := by
    delta readJson
    cases Utf8.decode bytes with
    | error f => rfl
    | ok cs =>
        dsimp only [Except.mapError, bind, Except.bind]
        generalize Json.read (Text.universalLines cs) = x
        rfl
  rw [parse, if_neg (Bool.eq_false_iff.1 h), hread]
  refine congrArg _ (funext fun v => ?_)
  cases v <;> rfl

theorem ofValue_eq_error_cases (v : Value) (f : Failure) (h : ofValue path v = .error f) :
    (v ≠ .null ∧ (∀ entries, v ≠ .dict entries) ∧ f = .problem (.configRoot path v.typeName)) ∨
      ∃ entries, v = .dict entries ∧ (∃ e ∈ effective entries, e.1.IsLongInteger) ∧
        f = .value .integerShown := by
  cases v with
  | null => exact nomatch h
  | dict entries =>
      refine .inr ⟨entries, rfl, ?_⟩
      by_cases hlong : ∃ e ∈ effective entries, e.1.IsLongInteger
      · have hentries := foldlM_addEntry_of_isLongInteger path (effective entries) hlong {}
        exact ⟨hlong, Except.error.inj (h.symm.trans hentries)⟩
      · obtain ⟨fates, hfates⟩ := exists_forall₂_hasFate path (effective entries)
        have hentries := foldlM_addEntry_of_forall₂ path (effective entries) fates hfates
          (fun e he hkey => hlong ⟨e, he, hkey⟩) {}
        exact nomatch h.symm.trans hentries
  | _ =>
      exact .inl ⟨fun hv => (nomatch hv), fun entries hv => (nomatch hv), (Except.error.inj h).symm⟩

theorem read_of_isYaml (bytes : Bytes) (x : Except YamlFault Value) (hname : isYaml path = true)
    (hcontent : host.content path s = .ok bytes) (h : host.yaml bytes = x) :
    read host path s = ofYaml path x >>= ofValue path := by
  rw [read, hcontent, ← h]
  exact parse_of_isYaml host path bytes hname

theorem read_of_not_isYaml (cs : List Char) (x : Except Json.ReadFault Json)
    (hname : isYaml path = false) (htext : Document.HoldsText host s path cs)
    (h : Json.read (Text.universalLines cs) = x) :
    read host path s = ofJson path x >>= ofValue path := by
  obtain ⟨bytes, hcontent, hcs⟩ := htext
  rw [read, hcontent, ← h]
  refine (parse_of_not_isYaml host path bytes hname).trans ?_
  rw [hcs]
  rfl

theorem read_of_holdsValue (v : Value) (h : HoldsValue host path s v) :
    read host path s = ofValue path v := by
  cases h with
  | json cs v hname htext h => exact read_of_not_isYaml host path s cs _ hname htext h
  | yaml bytes _ hname hcontent h => exact read_of_isYaml host path s bytes _ hname hcontent h

theorem read_of_isReported (p : Problem) (h : IsReported host path s p) :
    read host path s = .error (.problem p) := by
  cases h with
  | unread e h => rw [read, h]
  | unreadYaml bytes e hname hcontent h =>
      exact read_of_isYaml host path s bytes _ hname hcontent h
  | notJson cs m place hname htext h => exact read_of_not_isYaml host path s cs _ hname htext h
  | notYaml bytes m hname hcontent h => exact read_of_isYaml host path s bytes _ hname hcontent h
  | root v hvalue hnull h =>
      rw [read_of_holdsValue host path s v hvalue]
      cases v with
      | null => exact absurd rfl hnull
      | dict entries => exact absurd rfl (h entries)
      | _ => rfl

theorem read_of_escapes (f : Failure) (h : Escapes host path s f) :
    read host path s = .error f := by
  cases h with
  | name f h =>
      rw [read, h]
      rfl
  | undecoded bytes f hname hcontent h =>
      rw [read, hcontent]
      refine (parse_of_not_isYaml host path bytes hname).trans ?_
      rw [h]
      rfl
  | integer cs n hname htext h => exact read_of_not_isYaml host path s cs _ hname htext h
  | library bytes kind m hname hcontent h =>
      exact read_of_isYaml host path s bytes _ hname hcontent h
  | key entries hvalue h =>
      rw [read_of_holdsValue host path s _ hvalue]
      exact foldlM_addEntry_of_isLongInteger path (effective entries) h {}

theorem ofValue_cases (v : Value) (f : Failure) (hvalue : HoldsValue host path s v)
    (h : ofValue path v = .error f) :
    (∃ p, f = .problem p ∧ IsReported host path s p) ∨ Escapes host path s f := by
  rcases ofValue_eq_error_cases path v f h with ⟨hnull, hdict, rfl⟩ | ⟨entries, rfl, hlong, rfl⟩
  · exact .inl ⟨_, rfl, .root v hvalue hnull hdict⟩
  · exact .inr (.key entries hvalue hlong)

theorem read_yaml_cases (bytes : Bytes) (f : Failure) (hname : isYaml path = true)
    (hcontent : host.content path s = .ok bytes) (h : read host path s = .error f) :
    (∃ p, f = .problem p ∧ IsReported host path s p) ∨ Escapes host path s f := by
  rw [read_of_isYaml host path s bytes _ hname hcontent rfl] at h
  cases hread : host.yaml bytes with
  | ok v =>
      rw [hread] at h
      exact ofValue_cases host path s v f (.yaml bytes v hname hcontent hread) h
  | error fault =>
      rw [hread] at h
      cases fault with
      | refused e =>
          exact .inl ⟨_, (Except.error.inj h).symm, .unreadYaml bytes e hname hcontent hread⟩
      | invalid m =>
          exact .inl ⟨_, (Except.error.inj h).symm, .notYaml bytes m hname hcontent hread⟩
      | raised kind m =>
          exact .inr (Except.error.inj h ▸ .library bytes kind m hname hcontent hread)

theorem read_json_cases (cs : List Char) (f : Failure) (hname : isYaml path = false)
    (htext : Document.HoldsText host s path cs) (h : read host path s = .error f) :
    (∃ p, f = .problem p ∧ IsReported host path s p) ∨ Escapes host path s f := by
  rw [read_of_not_isYaml host path s cs _ hname htext rfl] at h
  cases hread : Json.read (Text.universalLines cs) with
  | ok v =>
      rw [hread] at h
      exact ofValue_cases host path s _ f (.json cs v hname htext hread) h
  | error fault =>
      rw [hread] at h
      cases fault with
      | syntaxError m place =>
          exact .inl ⟨_, (Except.error.inj h).symm, .notJson cs m place hname htext hread⟩
      | tooManyDigits n => exact .inr (Except.error.inj h ▸ .integer cs n hname htext hread)

/-- Whatever reading fails with is reported or escapes. -/
theorem read_eq_error_cases (f : Failure) (h : read host path s = .error f) :
    (∃ p, f = .problem p ∧ IsReported host path s p) ∨ Escapes host path s f := by
  cases hcontent : host.content path s with
  | error fault =>
      rw [read, hcontent] at h
      cases fault with
      | system e => exact .inl ⟨_, (Except.error.inj h).symm, .unread e hcontent⟩
      | name n => exact .inr (Except.error.inj h ▸ .name n hcontent)
  | ok bytes =>
      cases hname : isYaml path with
      | true => exact read_yaml_cases host path s bytes f hname hcontent h
      | false =>
          cases hcs : Utf8.decode bytes with
          | ok cs => exact read_json_cases host path s cs f hname ⟨bytes, hcontent, hcs⟩ h
          | error d =>
              have hescapes := Escapes.undecoded bytes d hname hcontent hcs
              rw [read_of_escapes host path s _ hescapes] at h
              exact .inr (Except.error.inj h ▸ hescapes)

theorem read_eq_problem_iff (p : Problem) :
    read host path s = .error (.problem p) ↔ IsReported host path s p := by
  constructor
  · intro h
    rcases read_eq_error_cases host path s _ h with ⟨p', hp, hreported⟩ | hescapes
    · exact Failure.problem.inj hp ▸ hreported
    · exact absurd rfl (hescapes.ne_problem host path s _ p)
  · exact read_of_isReported host path s p

theorem read_eq_failure_iff (f : Failure) (hf : ∀ p, f ≠ .problem p) :
    read host path s = .error f ↔ Escapes host path s f := by
  constructor
  · intro h
    rcases read_eq_error_cases host path s f h with ⟨p, hp, -⟩ | hescapes
    · exact absurd hp (hf p)
    · exact hescapes
  · exact read_of_escapes host path s f

end Reading

section Project

variable (host : Host) (root : Text)

theorem reads_load (path : Text) : (load host path).Reads (read host path) := by
  refine Action.Reads.congr _ _ _ (Action.Reads.bind _ _ _ (fun f _ => .ok f)
    (Action.reads_ofStore _) fun f => ?_) fun s => ?_
  · exact Action.Reads.of_record _ _ _ (Action.reads_record _ _ _) (Action.reads_pure f)
  · cases read host path s <;> rfl

theorem reads_loadNamed (path : Text) :
    (do return (← load host path, some path) : Action (FileOptions × Option Text)).Reads
      fun s => (read host path s).map (·, some path) := by
  refine Action.Reads.congr _ _ _ (Action.Reads.bind _ _ _ (fun f _ => .ok (f, some path))
    (reads_load host path) fun f => Action.reads_pure _) fun s => ?_
  cases read host path s <;> rfl

def firstFile (s : Store) : Option Text :=
  ((fileNames.map (Path.join root)).find? (s.isFile host.here)).map (Path.absolute host.here)

theorem reads_find : (find host root).Reads fun s => .ok (firstFile host root s) := by
  refine Action.Reads.congr _ _ _ (Action.Reads.bind _ _ _
    (fun found _ => .ok (found.map (Path.absolute host.here))) (Action.reads_inspect _)
    fun found => ?_) fun s => rfl
  cases found with
  | none => exact Action.reads_pure none
  | some path =>
      exact Action.Reads.of_record _ _ _ (Action.reads_record _ _ _) (Action.reads_pure _)

/-- The option file of a project: the one that is named, which has to be there, or else the first
one that is found. -/
def projectFile (named : Option Text) (s : Store) : Except Problem (Option Text) :=
  match named with
  | none | some [] => .ok (firstFile host root s)
  | some name =>
      if s.isFile host.here (Path.join root name) then .ok (some (Path.join root name))
      else .error (.configAbsent (Path.join root name))

theorem exists_of_projectFile_eq_error (named : Option Text) (s : Store) (p : Problem)
    (h : projectFile host root named s = .error p) : ∃ path, p = .configAbsent path := by
  unfold projectFile at h
  split at h
  · exact nomatch h
  · exact nomatch h
  · split at h
    · exact nomatch h
    · exact ⟨_, (Except.error.inj h).symm⟩

def fileOptions (path : Option Text) (s : Store) : Except Failure (FileOptions × Option Text) :=
  match path with
  | none => .ok ({}, none)
  | some path => (read host path s).map (·, some path)

/-- What the options of a project come to depends on the files alone. -/
theorem reads_loadProject (named : Option Text) :
    (loadProject host root named).Reads fun s =>
      (projectFile host root named s).mapError Failure.problem >>= (fileOptions host · s) := by
  have hsearch : (loadProject host root none).Reads fun s =>
      fileOptions host (firstFile host root s) s := by
    refine Action.Reads.congr _ _ _ (Action.Reads.bind _ _ _ (fileOptions host ·)
      (reads_find host root) fun found => ?_) fun s => rfl
    cases found with
    | none => exact Action.Reads.of_record _ _ _ (Action.reads_record _ _ _) (Action.reads_pure _)
    | some path => exact reads_loadNamed host path
  rcases named with _ | _ | ⟨c, name⟩
  · exact hsearch
  · exact hsearch
  · refine Action.Reads.congr _ _ _ (Action.Reads.bind _ _ _ (fun there s =>
        if there then fileOptions host (some (Path.join root (c :: name))) s
        else .error (.problem (.configAbsent (Path.join root (c :: name)))))
      (Action.reads_inspect _) fun there => ?_) fun s => ?_
    · cases there with
      | true => exact reads_loadNamed host _
      | false => exact Action.reads_throw _
    · rw [projectFile]
      · simp only [bind, Except.bind]
        split <;> rfl
      · exact fun h => nomatch h

end Project

end FileOptions

namespace Session

variable (host : Host) (a : Arguments)

def optionFile (s : Store) : Except Problem (Option Text) :=
  FileOptions.projectFile host (projectRoot host a) a.configPath s

/-- Whether a problem is one with the option file of a command: the one that is named is not there,
or what is in the file is reported. -/
inductive HasBadFile (s : Store) : Problem → Prop
  | absent (p : Problem) (h : optionFile host a s = .error p) : HasBadFile s p
  | reported (path : Text) (p : Problem) (hfile : optionFile host a s = .ok (some path))
      (h : FileOptions.IsReported host path s p) : HasBadFile s p

theorem HasBadFile.kind_eq (s : Store) (p : Problem) (h : HasBadFile host a s p) :
    p.kind = .missingConfiguration := by
  cases h with
  | reported path _ hfile h => exact h.kind_eq host path s p
  | absent _ h =>
      obtain ⟨path, rfl⟩ := FileOptions.exists_of_projectFile_eq_error host _ _ s p h
      rfl

theorem settled_of_error (s : Store) (f : Failure)
    (h : (optionFile host a s).mapError Failure.problem >>= (FileOptions.fileOptions host · s) =
      .error f) : settled host a s = .error f := by
  obtain ⟨w', hload, -⟩ := (FileOptions.reads_loadProject host (projectRoot host a)
    a.configPath).exists_runOn_eq _ _ { store := s }
  rw [settled, Action.outcome, settings, Action.runOn_bind_of_error _ _ _ w' f (hload.trans ?_)]
  exact congrArg (·, w') h

theorem settled_of_hasBadFile (s : Store) (p : Problem) (h : HasBadFile host a s p) :
    settled host a s = .error (.problem p) := by
  refine settled_of_error host a s _ ?_
  cases h with
  | absent _ h =>
      rw [h]
      rfl
  | reported path _ hfile h =>
      rw [hfile]
      exact congrArg (Except.map (·, some path))
        (FileOptions.read_of_isReported host path s p h)

theorem settled_of_escapes (s : Store) (path : Text) (f : Failure)
    (hfile : optionFile host a s = .ok (some path))
    (h : FileOptions.Escapes host path s f) : settled host a s = .error f := by
  refine settled_of_error host a s _ ?_
  rw [hfile]
  exact congrArg (Except.map (·, some path)) (FileOptions.read_of_escapes host path s f h)

section Ending

variable (time : Text) (w : Workspace) (l : Logging) (s : Store)
variable (hconfigure :
  Logging.configure host.here host.umask time (logOptions a) false {} w.store = (.ok (), l, s))
include hconfigure

theorem execute_of_settled_eq_problem (p : Problem) (h : settled host a s = .error (.problem p)) :
    (execute host time .english a w).1.ending = .ok 1 ∧
      (execute host time .english a w).1.printed = ⟨[], l.notices ++ failureLine p.message⟩ := by
  have hcourse := course_perform host a .english { w with store := s }
  rcases hperform : (perform host .english a).runOn { w with store := s } with ⟨ended, w₁⟩
  rw [hperform] at hcourse
  rw [execute_eq host a time .english w w₁ l s ended hconfigure hperform]
  cases hcourse with
  | refused p' w₂ hsettled hgains hending =>
      obtain rfl := Failure.problem.inj (Except.error.inj (hsettled.symm.trans h))
      rw [failureText_english] at hending
      obtain ⟨rfl, rfl⟩ := Prod.mk.inj hending
      exact ⟨rfl, rfl⟩
  | broken f w₂ hsettled hf hending =>
      exact absurd (Except.error.inj (hsettled.symm.trans h)) (hf p)
  | dumped _ _ _ _ hsettled => exact nomatch hsettled.symm.trans h
  | ran _ _ _ _ hsettled => exact nomatch hsettled.symm.trans h

theorem execute_of_settled_eq_failure (f : Failure) (hf : ∀ p, f ≠ .problem p)
    (h : settled host a s = .error f) : (execute host time .english a w).1.ending = .error f := by
  have hcourse := course_perform host a .english { w with store := s }
  rcases hperform : (perform host .english a).runOn { w with store := s } with ⟨ended, w₁⟩
  rw [hperform] at hcourse
  rw [execute_eq host a time .english w w₁ l s ended hconfigure hperform]
  cases hcourse with
  | refused p w₂ hsettled hgains hending =>
      exact absurd (Except.error.inj (h.symm.trans hsettled)) (hf p)
  | broken f' w₂ hsettled hf' hending =>
      obtain rfl := Except.error.inj (hsettled.symm.trans h)
      obtain ⟨rfl, rfl⟩ := Prod.mk.inj hending
      rfl
  | dumped _ _ _ _ hsettled => exact nomatch hsettled.symm.trans h
  | ran _ _ _ _ hsettled => exact nomatch hsettled.symm.trans h

end Ending

/-- Reading an option file fails with the problems that are reported, all of one kind, and with the
failures that escape, and with nothing else. A command whose option file is not there or has such a
problem tells of it and ends with 1, and such a failure ends the command. -/
theorem option_files_are_reported_or_escape (host : Host) (s : Store) :
    (∀ path,
      (∀ p, FileOptions.read host path s = .error (.problem p) ↔
        FileOptions.IsReported host path s p) ∧
      (∀ p, FileOptions.IsReported host path s p → p.kind = .missingConfiguration) ∧
      ∀ f, (∀ p, f ≠ .problem p) →
        (FileOptions.read host path s = .error f ↔
          FileOptions.Escapes host path s f)) ∧
    ∀ a time words w l, Arguments.read words = .ok a →
      Logging.configure host.here host.umask time (logOptions a) false {} w.store = (.ok (), l, s) →
      (∀ p, HasBadFile host a s p → p.kind = .missingConfiguration ∧
        (command host time .english words w).1.ending = .ok 1 ∧
        (command host time .english words w).1.printed =
          ⟨[], l.notices ++ failureLine p.message⟩) ∧
      ∀ path f, optionFile host a s = .ok (some path) → FileOptions.Escapes host path s f →
        (command host time .english words w).1.ending = .error f := by
  refine ⟨fun path => ⟨FileOptions.read_eq_problem_iff host path s,
    fun p h => h.kind_eq host path s p, FileOptions.read_eq_failure_iff host path s⟩, ?_⟩
  intro a time words w l hwords hconfigure
  have hcommand : command host time .english words w = execute host time .english a w := by
    rw [command, hwords]
  rw [hcommand]
  refine ⟨fun p hbad => ⟨hbad.kind_eq host a s p, ?_⟩, fun path f hfile hescapes => ?_⟩
  · exact execute_of_settled_eq_problem host a time w l s hconfigure p
      (settled_of_hasBadFile host a s p hbad)
  · exact execute_of_settled_eq_failure host a time w l s hconfigure f
      (hescapes.ne_problem host path s f) (settled_of_escapes host a s path f hfile hescapes)

def optionWorkspace (bytes : Bytes) : Workspace where
  store := ⟨[(["rn-translation-gen.json"], .file bytes 0o644)]⟩

/-- What an option file with a byte that is no character fails with is no problem at all. -/
theorem not_every_bad_option_file_is_reported :
    ¬ ∀ (host : Host) (path : Text) (s : Store) (f : Failure),
      FileOptions.read host path s = .error f →
        ∃ p, f = .problem p ∧ p.kind = .missingConfiguration := by
  intro h
  have hread := eq_error_of_error?_eq_some
    (FileOptions.read bareHost "/rn-translation-gen.json" (optionWorkspace [0xff]).store)
    (.decoding ⟨0, 0, 0xff, .startByte⟩) (by decide +kernel)
  obtain ⟨p, hp, -⟩ := h _ _ _ _ hread
  exact nomatch hp

theorem option_files_are_reported_or_escape_listed :
    (command bareHost [] .english [] (optionWorkspace [0x5b, 0x5d])).1.ending = .ok 1 ∧
      (command bareHost [] .english [] (optionWorkspace [0x5b, 0x5d])).1.printed =
        ⟨[], failureLine (Problem.configRoot "/rn-translation-gen.json" "list").message⟩ ∧
      (command bareHost [] .english [] (optionWorkspace [0xff])).1.ending =
        .error (.decoding ⟨0, 0, 0xff, .startByte⟩) := by
  obtain ⟨hlistRead, hlistCommand⟩ :=
    option_files_are_reported_or_escape bareHost (optionWorkspace [0x5b, 0x5d]).store
  obtain ⟨hbyteRead, hbyteCommand⟩ :=
    option_files_are_reported_or_escape bareHost (optionWorkspace [0xff]).store
  obtain ⟨hproblem, -, -⟩ := hlistRead "/rn-translation-gen.json"
  obtain ⟨-, -, hfailure⟩ := hbyteRead "/rn-translation-gen.json"
  have hreported := (hproblem (.configRoot "/rn-translation-gen.json" "list")).1
    (eq_error_of_error?_eq_some _ _ (by decide +kernel))
  have hescapes := (hfailure (.decoding ⟨0, 0, 0xff, .startByte⟩) (fun p h => nomatch h)).1
    (eq_error_of_error?_eq_some _ _ (by decide +kernel))
  obtain ⟨htold, -⟩ := hlistCommand {} [] [] (optionWorkspace [0x5b, 0x5d]) _ rfl rfl
  obtain ⟨-, hended⟩ := hbyteCommand {} [] [] (optionWorkspace [0xff]) _ rfl rfl
  obtain ⟨-, hexit, hprinted⟩ := htold _ (.reported "/rn-translation-gen.json" _ rfl hreported)
  exact ⟨hexit, hprinted, hended "/rn-translation-gen.json" _ rfl hescapes⟩

end Session

end LocaleKeys
