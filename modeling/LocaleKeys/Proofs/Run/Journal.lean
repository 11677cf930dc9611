import LocaleKeys.Proofs.Run.Outcome
import LocaleKeys.Proofs.Run.Stages

/-!
# What an action records

An action takes a workspace to one that stands in a relation to it (`Leads`); where the relation is
a preorder, an action in parts does so if its parts do. The relation that is of use is that records
have been added and nothing else has changed (`Workspace.Gains`).
-/

namespace LocaleKeys

namespace Workspace

/-- Whether a workspace is another one with records added, all of them from given sources. -/
def Gains (sources : List Text) (w w' : Workspace) : Prop :=
  ∃ records, w' = { w with journal := w.journal ++ records } ∧ ∀ r ∈ records, r.source ∈ sources

theorem gains_refl (sources : List Text) (w : Workspace) : Gains sources w w :=
  ⟨[], by rw [List.append_nil], nofun⟩

theorem Gains.trans {sources : List Text} {w₁ w₂ w₃ : Workspace} (h : Gains sources w₁ w₂)
    (h' : Gains sources w₂ w₃) : Gains sources w₁ w₃ := by
  obtain ⟨first, rfl, hfirst⟩ := h
  obtain ⟨second, rfl, hsecond⟩ := h'
  refine ⟨first ++ second, by simp only [List.append_assoc], fun r hr => ?_⟩
  exact (List.mem_append.1 hr).elim (hfirst r) (hsecond r)

theorem Gains.store_eq {sources : List Text} {w w' : Workspace} (h : Gains sources w w') :
    w'.store = w.store := by
  obtain ⟨records, rfl, -⟩ := h
  rfl

instance (sources : List Text) : IsPreorder Workspace (Gains sources) where
  refl := gains_refl sources
  trans _ _ _ := Gains.trans

end Workspace

open Workspace (Gains)

namespace Action

variable {α β : Type}

/-- Whether an action takes every workspace to one that stands in a relation to it. -/
def Leads (R : Workspace → Workspace → Prop) (a : Action α) : Prop := ∀ w, R w (a.runOn w).2

section Preorder

variable {R : Workspace → Workspace → Prop} [IsPreorder Workspace R]

theorem leads_pure (x : α) : (pure x : Action α).Leads R := fun w => refl_of R w

theorem leads_throw (e : Failure) : (throw e : Action α).Leads R := fun w => refl_of R w

theorem leads_inspect (f : Store → α) : (inspect f).Leads R := fun w => refl_of R w

theorem leads_ofStore (f : Store → Except Failure α) : (ofStore f).Leads R := fun w => refl_of R w

theorem Leads.bind {a : Action α} {k : α → Action β} (ha : a.Leads R)
    (hk : ∀ x, (k x).Leads R) : (a >>= k).Leads R := by
  intro w
  have hfirst := ha w
  rcases hrun : a.runOn w with ⟨e | x, w₁⟩
  · rw [hrun] at hfirst
    rwa [runOn_bind_of_error a k w w₁ e hrun]
  · rw [hrun] at hfirst
    rw [runOn_bind_of_ok a k w w₁ x hrun]
    exact trans_of R hfirst (hk x w₁)

end Preorder

theorem leads_gains_record (sources : List Text) (severity : Severity) (source message : Text)
    (hsource : source ∈ sources) : (record severity source message).Leads (Gains sources) := by
  refine fun w => ⟨[⟨severity, source, message⟩], rfl, fun r hr => ?_⟩
  rwa [List.mem_singleton.1 hr]

/-- Whether an action does nothing with the files but look at them, and adds records from given
sources only. -/
structure Consults (sources : List Text) (a : Action α) : Prop where
  followsFiles : a.FollowsFiles
  gains : a.Leads (Gains sources)

section Consults

variable {sources : List Text}

theorem consults_pure (x : α) : (pure x : Action α).Consults sources :=
  ⟨(reads_pure x).followsFiles, leads_pure x⟩

theorem consults_throw (e : Failure) : (throw e : Action α).Consults sources :=
  ⟨(reads_throw e).followsFiles, leads_throw e⟩

theorem consults_inspect (f : Store → α) : (inspect f).Consults sources :=
  ⟨(reads_inspect f).followsFiles, leads_inspect f⟩

theorem consults_ofStore (f : Store → Except Failure α) : (ofStore f).Consults sources :=
  ⟨(reads_ofStore f).followsFiles, leads_ofStore f⟩

theorem consults_record (severity : Severity) (source message : Text) (hsource : source ∈ sources) :
    (record severity source message).Consults sources :=
  ⟨(reads_record _ _ _).followsFiles, leads_gains_record sources severity source message hsource⟩

theorem Consults.bind {a : Action α} {k : α → Action β} (ha : a.Consults sources)
    (hk : ∀ x, (k x).Consults sources) : (a >>= k).Consults sources :=
  ⟨ha.followsFiles.bind fun x => (hk x).followsFiles, ha.gains.bind fun x => (hk x).gains⟩

/-- What an action that only consults the files gives, and what it leaves. -/
theorem Consults.exists_runOn_eq {a : Action α} (h : a.Consults sources) (w : Workspace) :
    ∃ w', a.runOn w = ((a.outcome w.store).1, w') ∧ Gains sources w w' :=
  ⟨_, Prod.ext (h.followsFiles.fst_runOn w) rfl, h.gains w⟩

variable (sources) in
theorem exists_runOn_forM_record {γ : Type} (severity : Severity) (source : Text)
    (hsource : source ∈ sources) (message : γ → Text) (xs : List γ) (w : Workspace) :
    ∃ w', (xs.forM fun x => record severity source (message x)).runOn w = (.ok (), w') ∧
      Gains sources w w' := by
  induction xs generalizing w with
  | nil => exact ⟨w, rfl, Workspace.gains_refl sources w⟩
  | cons x xs ih =>
      have hrecord := leads_gains_record sources severity source (message x) hsource w
      rw [List.forM, runOn_bind_of_ok _ _ w _ () (runOn_record _ _ _ w)]
      obtain ⟨w', hrun, hgains⟩ := ih _
      exact ⟨w', hrun, hrecord.trans hgains⟩

end Consults

end Action

end LocaleKeys
