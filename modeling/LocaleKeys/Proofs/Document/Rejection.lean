import LocaleKeys.Proofs.Document.Selection

/-!
# Why loading fails

Loading fails with a problem, with one exception: an integer of the document that has too many
digits (`HoldsLongInteger`). Whatever else is wrong with a directory or with the bytes of its
document becomes a problem, since all paths on the way are names.
-/

namespace LocaleKeys

namespace Document

variable (host : Host) (dir : Text) (s : Store)

theorem parse_eq_error_cases (path : Text) (bytes : Bytes) (f : Failure)
    (h : parse path bytes = .error f) :
    (∃ p, f = .problem p) ∨ ∃ n, f = .value (.integerDigits n) := by
  unfold parse at h
  split at h
  · exact .inl ⟨_, (Except.error.inj h).symm⟩
  · split at h
    · exact .inl ⟨_, (Except.error.inj h).symm⟩
    · exact .inr ⟨_, (Except.error.inj h).symm⟩
    · exact nomatch h
    · exact .inl ⟨_, (Except.error.inj h).symm⟩

theorem exists_system_of_files_eq_error (suffix : Text) (f : StoreFault)
    (hdir : s.isDirectory host.here dir = true) (h : files host dir suffix s = .error f) :
    ∃ e, f = .system e := by
  obtain ⟨l, hl, -⟩ := (Store.isDirectory_iff _ _ _).1 hdir
  unfold files at h
  split at h
  · exact ⟨_, (Except.error.inj h).symm⟩
  · rcases bind_eq_error_cases _ _ _ h with hnames | ⟨ns, -, hns⟩
    · exact Store.exists_system_of_names_eq_error s host.here dir
        ((Store.locate_eq_ok_iff _ _ _ _).1 hl).1 f hnames
    · exact nomatch hns

theorem exists_problem_of_candidates_eq_error (f : Failure)
    (h : candidates host dir s = .error f) : ∃ p, f = .problem p := by
  unfold candidates at h
  cases hdir : s.isDirectory host.here dir with
  | false =>
      rw [hdir] at h
      exact ⟨_, (Except.error.inj h).symm⟩
  | true =>
      rw [hdir] at h
      cases hfiles : files host dir suffix s with
      | ok paths =>
          rw [hfiles] at h
          exact nomatch h
      | error fault =>
          obtain ⟨e, rfl⟩ := exists_system_of_files_eq_error host dir s suffix fault hdir hfiles
          rw [hfiles] at h
          exact ⟨_, (Except.error.inj h).symm⟩

theorem exists_problem_of_selected_eq_error (f : Failure) (h : selected host dir s = .error f) :
    ∃ p, f = .problem p := by
  rcases bind_eq_error_cases _ _ _ h with h | ⟨paths, -, h⟩
  · exact exists_problem_of_candidates_eq_error host dir s f h
  · cases paths with
    | nil => exact ⟨_, (Except.error.inj h).symm⟩
    | cons path paths => exact nomatch h

theorem isNameable_of_mem_selected (hhere : ∀ c ∈ host.here, Name.isNameable c = true)
    (path : Text) (h : selected host dir s = .ok path) : ∀ c ∈ path, Name.isNameable c = true := by
  obtain ⟨-, d, name, -, -, hdocument, -, rfl⟩ := (selected_eq_ok_iff _ _ _ _).1 h
  obtain ⟨l, bytes, mode, hl, -⟩ := (Store.isFile_iff _ _ _).1 hdocument.isFile
  exact Path.isNameable_of_mem_absolute host.here _ hhere ((Store.locate_eq_ok_iff _ _ _ _).1 hl).1

/-- Whether the selected document has an integer of `n` digits, which are too many. -/
def HoldsLongInteger (n : Nat) : Prop :=
  ∃ path bytes, selected host dir s = .ok path ∧ host.content path s = .ok bytes ∧
    parse path bytes = .error (.value (.integerDigits n))

/-- Loading fails with a problem, or at a long integer. -/
theorem loaded_eq_error_cases (hhere : ∀ c ∈ host.here, Name.isNameable c = true)
    (key : Option Text) (f : Failure) (h : loaded host dir key s = .error f) :
    (∃ p, f = .problem p) ∨
      ∃ n, HoldsLongInteger host dir s n ∧ f = .value (.integerDigits n) := by
  rcases bind_eq_error_cases _ _ _ h with h | ⟨path, hpath, h⟩
  · exact .inl (exists_problem_of_selected_eq_error host dir s f h)
  rcases bind_eq_error_cases _ _ _ h with h | ⟨whole, -, h⟩
  · cases hcontent : host.content path s with
    | ok bytes =>
        rw [read, hcontent] at h
        rcases parse_eq_error_cases path bytes f h with hproblem | ⟨n, rfl⟩
        · exact .inl hproblem
        · exact .inr ⟨n, ⟨path, bytes, hpath, hcontent, h⟩, rfl⟩
    | error fault =>
        obtain ⟨e, rfl⟩ := host.exists_system_of_content_eq_error path s
          (isNameable_of_mem_selected host dir s hhere path hpath) fault hcontent
        rw [read, hcontent] at h
        exact .inl ⟨_, (Except.error.inj h).symm⟩
  rcases bind_eq_error_cases _ _ _ h with h | ⟨tree, -, h⟩
  · obtain ⟨p, -, rfl⟩ := exists_of_mapError_eq_error _ _ _ h
    exact .inl ⟨p, rfl⟩
  rcases bind_eq_error_cases _ _ _ h with h | ⟨u, -, h⟩
  · obtain ⟨p, -, rfl⟩ := exists_of_mapError_eq_error _ _ _ h
    exact .inl ⟨p, rfl⟩
  · exact nomatch h

end Document

end LocaleKeys
