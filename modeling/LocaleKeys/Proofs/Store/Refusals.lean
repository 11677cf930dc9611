import LocaleKeys.Proofs.Path.Nameable
import LocaleKeys.Proofs.Store.Replacement
import LocaleKeys.Proofs.Success

/-!
# How the store refuses

An operation at a path fails either because the path is no name, or with a refusal of the system.
At a path whose code points may all stand in a name only the second can happen, and replacing a file
there fails with a refusal of the system as well, since its temporary file has such a path, too.
-/

namespace LocaleKeys

namespace Store

variable (s : Store) (here path : Text) (hpath : ∀ c ∈ path, Name.isNameable c = true)
include hpath

theorem exists_system_of_locate_eq_error (f : StoreFault) (h : s.locate here path = .error f) :
    ∃ e, f = .system e := by
  rw [locate, (checkPath_eq_ok_iff path).2 hpath] at h
  simp only [bind, Except.bind] at h
  split at h
  · exact ⟨_, (Except.error.inj h).symm⟩
  · split at h
    · exact ⟨_, (Except.error.inj h).symm⟩
    · split at h
      · cases h
      · exact ⟨_, (Except.error.inj h).symm⟩

theorem exists_system_of_entry_eq_error (f : StoreFault) (h : s.entry here path = .error f) :
    ∃ e, f = .system e := by
  rcases bind_eq_error_cases _ _ _ h with h | ⟨l, -, h⟩
  · exact exists_system_of_locate_eq_error s here path hpath f h
  · split at h
    · exact nomatch h
    · exact ⟨_, (Except.error.inj h).symm⟩

theorem exists_system_of_names_eq_error (f : StoreFault) (h : s.names here path = .error f) :
    ∃ e, f = .system e := by
  rcases bind_eq_error_cases _ _ _ h with h | ⟨⟨l, e⟩, -, h⟩
  · exact exists_system_of_entry_eq_error s here path hpath f h
  · cases e with
    | directory mode => exact nomatch h
    | file bytes mode => exact ⟨_, (Except.error.inj h).symm⟩

theorem exists_system_of_content_eq_error (f : StoreFault)
    (h : s.content here path = .error f) : ∃ e, f = .system e := by
  rcases bind_eq_error_cases _ _ _ h with h | ⟨⟨l, e⟩, -, h⟩
  · exact exists_system_of_entry_eq_error s here path hpath f h
  · cases e with
    | file bytes mode => exact nomatch h
    | directory mode => exact ⟨_, (Except.error.inj h).symm⟩

theorem isNameable_of_mem_temporary (hhere : ∀ c ∈ here, Name.isNameable c = true) :
    ∀ c ∈ Path.join (temporaryDirectory here path) (s.temporaryFor here path),
      Name.isNameable c = true := by
  have habsolute := Path.isNameable_of_mem_absolute here path hhere hpath
  refine Path.isNameable_of_mem_join _ _ (fun c hc => ?_) ?_
  · exact habsolute c (Path.mem_of_mem_directory _ c hc)
  · obtain ⟨k, -, hk, -⟩ := exists_freshName_eq
      ((s.names here (temporaryDirectory here path)).toOption.getD [])
      (temporaryName (Path.base path))
    rw [temporaryFor, hk]
    exact isNameable_of_mem_temporaryName _
      (fun c hc => hpath c (Path.mem_of_mem_base path c hc)) k

theorem exists_system_of_finish_eq_error (refusals : Refusals) (mask : Mode) (temporary : Text)
    (source : Location) (data : Bytes) (mode : Mode) (f : StoreFault) (reached : Store)
    (h : s.finish refusals mask temporary here path source data mode = .error (f, reached)) :
    ∃ e, f = .system e := by
  rcases bind_eq_error_cases _ _ _ h with h | ⟨filled, -, h⟩
  · unfold fill at h
    split at h
    · exact ⟨_, (Prod.mk.inj (Except.error.inj h)).1.symm⟩
    · cases h
  rcases bind_eq_error_cases _ _ _ h with h | ⟨complete, -, h⟩
  · unfold setMode at h
    split at h
    · exact ⟨_, (Prod.mk.inj (Except.error.inj h)).1.symm⟩
    · cases h
  unfold moveInto at h
  split at h
  · next fault _ hcheck =>
      cases hcheck.symm.trans ((checkPath_eq_ok_iff path).2 hpath)
  · exact ⟨_, (Prod.mk.inj (Except.error.inj h)).1.symm⟩
  · split at h
    · exact ⟨_, (Prod.mk.inj (Except.error.inj h)).1.symm⟩
    · cases h

/-- Replacing a file at a path that is a name fails only with a refusal of the system. -/
theorem exists_system_of_replace_eq_error (hhere : ∀ c ∈ here, Name.isNameable c = true)
    (refusals : Refusals) (mask : Mode) (data : Bytes) (f : StoreFault) (s' : Store)
    (h : s.replace refusals mask here path data = (.error f, s')) : ∃ e, f = .system e := by
  unfold replace at h
  simp only at h
  split at h
  · next hsource =>
      rw [← Except.error.inj (Prod.mk.inj h).1]
      exact exists_system_of_locate_eq_error s here _
        (isNameable_of_mem_temporary s here path hpath hhere) _ hsource
  · exact ⟨_, (Except.error.inj (Prod.mk.inj h).1).symm⟩
  · split at h
    · next hfinish =>
        rw [← Except.error.inj (Prod.mk.inj h).1]
        exact exists_system_of_finish_eq_error _ here path hpath _ _ _ _ _ _ _ _ hfinish
    · cases (Prod.mk.inj h).1

end Store

end LocaleKeys
