import LocaleKeys.Proofs.Store.Refusals
import LocaleKeys.Run.Action

/-!
# What a host refuses

A host may refuse that a file is read, and each effect of replacing one. A host that refuses nothing
gives what stands in the store (`Host.Permissive`); one that refuses to read gives that refusal for
every file, and nothing where there is no file.
-/

namespace LocaleKeys

namespace Host

/-- Whether every file may be read and replaced. -/
structure Permissive (host : Host) : Prop where
  readRefusal : ∀ path, host.readRefusal path = none
  refusals : ∀ path, host.refusals path = .none

variable (host : Host) (path : Text) (s : Store)

theorem content?_of_readRefusal_eq_none (h : host.readRefusal path = none) :
    host.content? path s = .ok (s.content? host.here path) := by
  unfold content?
  rw [h]
  cases s.content? host.here path <;> rfl

theorem content?_eq_ok_some_iff (bytes : Bytes) :
    host.content? path s = .ok (some bytes) ↔
      host.readRefusal path = none ∧ s.content? host.here path = some bytes := by
  unfold content?
  cases s.content? host.here path <;> cases host.readRefusal path <;> simp

theorem content?_eq_ok_none_iff :
    host.content? path s = .ok none ↔ s.content? host.here path = none := by
  unfold content?
  cases s.content? host.here path <;> cases host.readRefusal path <;> simp

theorem content?_eq_of_eq_ok (bytes? : Option Bytes) (h : host.content? path s = .ok bytes?) :
    s.content? host.here path = bytes? := by
  cases bytes? with
  | none => exact (host.content?_eq_ok_none_iff path s).1 h
  | some bytes => exact ((host.content?_eq_ok_some_iff path s bytes).1 h).2

/-- Only what the host refuses cannot be read, and only where there is a file. -/
theorem content?_eq_error_iff (f : StoreFault) :
    host.content? path s = .error f ↔
      (∃ bytes, s.content? host.here path = some bytes) ∧
        ∃ r, host.readRefusal path = some r ∧ f = .system (.about r path) := by
  unfold content?
  cases s.content? host.here path <;> cases host.readRefusal path <;> simp [eq_comm]

theorem content_eq_ok_iff (bytes : Bytes) :
    host.content path s = .ok bytes ↔
      s.content host.here path = .ok bytes ∧ host.readRefusal path = none := by
  unfold content
  cases s.content host.here path with
  | error f => simp [bind, Except.bind]
  | ok b => cases host.readRefusal path <;> simp [bind, Except.bind]

theorem exists_content_eq_error_iff :
    (∃ f, host.content path s = .error f) ↔
      s.isFile host.here path = false ∨ ∃ r, host.readRefusal path = some r := by
  rw [← Store.content?_eq_none_iff_isFile]
  unfold content
  cases hcontent : s.content host.here path with
  | error f =>
      have hnone : s.content? host.here path = none := by
        rw [Option.eq_none_iff_forall_ne_some]
        intro bytes hbytes
        rw [Store.content?_eq_some_iff, ← Store.content_eq_ok_iff] at hbytes
        cases hcontent.symm.trans hbytes
      exact ⟨fun _ => .inl hnone, fun _ => ⟨f, rfl⟩⟩
  | ok bytes =>
      have hsome : s.content? host.here path = some bytes := by
        rw [Store.content?_eq_some_iff, ← Store.content_eq_ok_iff, hcontent]
      rw [hsome]
      cases host.readRefusal path <;> simp [bind, Except.bind]

theorem exists_system_of_content_eq_error (hpath : ∀ c ∈ path, Name.isNameable c = true)
    (f : StoreFault) (h : host.content path s = .error f) : ∃ e, f = .system e := by
  rcases bind_eq_error_cases _ _ _ h with h | ⟨bytes, -, h⟩
  · exact Store.exists_system_of_content_eq_error s host.here path hpath f h
  · split at h
    · exact ⟨_, (Except.error.inj h).symm⟩
    · cases h

theorem exists_system_of_content?_eq_error (f : StoreFault)
    (h : host.content? path s = .error f) : ∃ e, f = .system e := by
  obtain ⟨-, r, -, rfl⟩ := (host.content?_eq_error_iff path s f).1 h
  exact ⟨_, rfl⟩

theorem exists_system_of_replace_eq_error (hhere : ∀ c ∈ host.here, Name.isNameable c = true)
    (hpath : ∀ c ∈ path, Name.isNameable c = true) (data : Bytes) (f : StoreFault) (s' : Store)
    (h : host.replace path data s = (.error f, s')) : ∃ e, f = .system e :=
  Store.exists_system_of_replace_eq_error s host.here path hpath hhere _ _ data f s' h

end Host

/-- A host without formatters whose current directory is the root. To it every YAML document is an
empty one. -/
def bareHost : Host :=
  { here := "/", environment := {}, tools := [], yaml := fun _ => .ok .null, umask := 0o022 }

end LocaleKeys
