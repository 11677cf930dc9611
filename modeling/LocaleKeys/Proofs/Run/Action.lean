import LocaleKeys.Proofs.Success
import LocaleKeys.Run.Action

/-!
# Laws of actions

What an action does is what `runOn` shows of it. Actions that only look at the files and make
records are described by a function of the store (`Reads`), and this description is put together
along the action like the action itself.
-/

namespace LocaleKeys

namespace Action

variable {α β : Type}

theorem runOn_bind (a : Action α) (k : α → Action β) (w : Workspace) :
    (a >>= k).runOn w =
      match a.runOn w with
      | (.ok x, w') => (k x).runOn w'
      | (.error e, w') => (.error e, w') := by
  unfold runOn
  simp only [bind, ExceptT.bind, ExceptT.mk, StateT.bind, ExceptT.bindCont]
  cases a w with
  | mk result w' => cases result <;> rfl

theorem runOn_bind_of_ok (a : Action α) (k : α → Action β) (w w' : Workspace) (x : α)
    (h : a.runOn w = (.ok x, w')) : (a >>= k).runOn w = (k x).runOn w' := by
  rw [runOn_bind, h]

theorem runOn_bind_of_error (a : Action α) (k : α → Action β) (w w' : Workspace) (e : Failure)
    (h : a.runOn w = (.error e, w')) : (a >>= k).runOn w = (.error e, w') := by
  rw [runOn_bind, h]

theorem exists_of_runOn_bind_eq_ok (a : Action α) (k : α → Action β) (w w' : Workspace) (y : β)
    (h : (a >>= k).runOn w = (.ok y, w')) :
    ∃ x w₁, a.runOn w = (.ok x, w₁) ∧ (k x).runOn w₁ = (.ok y, w') := by
  rw [runOn_bind] at h
  rcases ha : a.runOn w with ⟨e | x, w₁⟩
  · rw [ha] at h
    exact nomatch (Prod.mk.inj h).1
  · rw [ha] at h
    exact ⟨x, w₁, rfl, h⟩

/-- What is seen of the result of an action, the action comes to. -/
theorem exists_runOn_eq_of_map_toOption (f : α → β) (a : Action α) (w : Workspace) (b : β)
    (h : (a.runOn w).1.toOption.map f = some b) :
    ∃ x, a.runOn w = (.ok x, (a.runOn w).2) ∧ f x = b := by
  obtain ⟨x, hx, hb⟩ := exists_of_map_toOption_eq_some f _ b h
  exact ⟨x, Prod.ext hx rfl, hb⟩

theorem runOn_bind_eq_error (a : Action α) (k : α → Action β) (w w' : Workspace) (e : Failure)
    (h : (a >>= k).runOn w = (.error e, w')) :
    a.runOn w = (.error e, w') ∨
      ∃ x w₁, a.runOn w = (.ok x, w₁) ∧ (k x).runOn w₁ = (.error e, w') := by
  rw [runOn_bind] at h
  rcases ha : a.runOn w with ⟨e' | x, w₁⟩
  · rw [ha] at h
    obtain ⟨he, rfl⟩ := Prod.mk.inj h
    rw [Except.error.inj he]
    exact .inl rfl
  · rw [ha] at h
    exact .inr ⟨x, w₁, rfl, h⟩

theorem runOn_capture (a : Action α) (w : Workspace) :
    (capture a).runOn w = (.ok (a.runOn w).1, (a.runOn w).2) := rfl

theorem runOn_record (severity : Severity) (source message : Text) (w : Workspace) :
    (record severity source message).runOn w =
      (.ok (), { w with journal := w.journal ++ [⟨severity, source, message⟩] }) := rfl

theorem runOn_read_of_ok (f : Store → Except StoreFault α) (w : Workspace) (x : α)
    (h : f w.store = .ok x) : (read f).runOn w = (.ok x, w) :=
  Prod.ext (congrArg (Except.mapError Failure.ofStore) h) rfl

theorem runOn_read_of_error (f : Store → Except StoreFault α) (w : Workspace) (e : StoreFault)
    (h : f w.store = .error e) : (read f).runOn w = (.error (.ofStore e), w) :=
  Prod.ext (congrArg (Except.mapError Failure.ofStore) h) rfl

theorem runOn_modify (f : Workspace → Workspace) (w : Workspace) :
    (modify f : Action Unit).runOn w = (.ok (), f w) := rfl

theorem runOn_change_of_ok (f : Store → Except StoreFault α × Store) (w : Workspace) (a : α)
    (s : Store) (h : f w.store = (.ok a, s)) :
    (change f).runOn w = (.ok a, { w with store := s }) := by
  have hget : (get : Action Workspace).runOn w = (.ok w, w) := rfl
  rw [change, runOn_bind_of_ok _ _ w w w hget, h]
  rfl

theorem runOn_change_of_error (f : Store → Except StoreFault α × Store) (w : Workspace)
    (fault : StoreFault) (s : Store) (h : f w.store = (.error fault, s)) :
    (change f).runOn w = (.error (.ofStore fault), { w with store := s }) := by
  have hget : (get : Action Workspace).runOn w = (.ok w, w) := rfl
  rw [change, runOn_bind_of_ok _ _ w w w hget, h]
  rfl

theorem exists_of_runOn_change_eq_ok (f : Store → Except StoreFault α × Store) (w w' : Workspace)
    (a : α) (h : (change f).runOn w = (.ok a, w')) :
    f w.store = (.ok a, w'.store) := by
  have hget : (get : Action Workspace).runOn w = (.ok w, w) := rfl
  rw [change, runOn_bind_of_ok _ _ w w w hget] at h
  rcases hf : f w.store with ⟨e | x, s⟩
  · rw [hf] at h
    exact nomatch (Prod.mk.inj h).1
  · rw [hf] at h
    obtain ⟨hx, rfl⟩ := Prod.mk.inj h
    rw [Except.ok.inj hx]

theorem exists_of_runOn_change_eq_error (f : Store → Except StoreFault α × Store)
    (w w' : Workspace) (e : Failure) (h : (change f).runOn w = (.error e, w')) :
    ∃ fault, f w.store = (.error fault, w'.store) ∧ e = .ofStore fault := by
  have hget : (get : Action Workspace).runOn w = (.ok w, w) := rfl
  rw [change, runOn_bind_of_ok _ _ w w w hget] at h
  rcases hf : f w.store with ⟨fault | x, s⟩
  · rw [hf] at h
    obtain ⟨he, rfl⟩ := Prod.mk.inj h
    exact ⟨fault, rfl, (Except.error.inj he).symm⟩
  · rw [hf] at h
    exact nomatch (Prod.mk.inj h).1

/-- The action gives what `f` says of the files, and changes nothing but that it adds records. -/
def Reads (a : Action α) (f : Store → Except Failure α) : Prop :=
  ∀ w, ∃ records, a.runOn w = (f w.store, { w with journal := w.journal ++ records })

theorem Reads.of_runOn_eq (a : Action α) (f : Store → Except Failure α)
    (h : ∀ w, a.runOn w = (f w.store, w)) : a.Reads f := by
  intro w
  refine ⟨[], ?_⟩
  rw [h w, List.append_nil]

theorem reads_pure (a : α) : Reads (pure a) fun _ => .ok a := .of_runOn_eq _ _ fun _ => rfl

theorem reads_throw (e : Failure) : Reads (throw e : Action α) fun _ => .error e :=
  .of_runOn_eq _ _ fun _ => rfl

theorem reads_inspect (f : Store → α) : Reads (inspect f) fun s => .ok (f s) :=
  .of_runOn_eq _ _ fun _ => rfl

theorem reads_ofStore (f : Store → Except Failure α) : Reads (ofStore f) f :=
  .of_runOn_eq _ _ fun _ => rfl

theorem reads_ofProblem (x : Except Problem α) :
    Reads (ofProblem x) fun _ => x.mapError .problem := by
  cases x with
  | ok a => exact .of_runOn_eq _ _ fun _ => rfl
  | error p => exact .of_runOn_eq _ _ fun _ => rfl

theorem reads_record (severity : Severity) (source message : Text) :
    Reads (record severity source message) fun _ => .ok () :=
  fun _ => ⟨[⟨severity, source, message⟩], rfl⟩

theorem Reads.bind (a : Action α) (k : α → Action β) (f : Store → Except Failure α)
    (g : α → Store → Except Failure β) (ha : a.Reads f) (hk : ∀ x, (k x).Reads (g x)) :
    (a >>= k).Reads fun s => f s >>= fun x => g x s := by
  intro w
  obtain ⟨first, hfirst⟩ := ha w
  cases hf : f w.store with
  | error e =>
      rw [hf] at hfirst
      refine ⟨first, ?_⟩
      rw [runOn_bind_of_error a k w _ e hfirst]
      simp only [hf]
      rfl
  | ok x =>
      rw [hf] at hfirst
      obtain ⟨second, hsecond⟩ := hk x { w with journal := w.journal ++ first }
      refine ⟨first ++ second, ?_⟩
      rw [runOn_bind_of_ok a k w _ x hfirst, hsecond]
      simp only [hf, List.append_assoc]
      rfl

theorem Reads.of_record (a : Action Unit) (k : Unit → Action β) (g : Store → Except Failure β)
    (ha : a.Reads fun _ => .ok ()) (hk : (k ()).Reads g) : (a >>= k).Reads g :=
  Reads.bind a k _ (fun _ => g) ha fun _ => hk

theorem Reads.congr (a : Action α) (f g : Store → Except Failure α) (ha : a.Reads f)
    (h : ∀ s, f s = g s) : a.Reads g := by
  intro w
  obtain ⟨records, hrecords⟩ := ha w
  exact ⟨records, by rw [hrecords, h]⟩

theorem Reads.fst_runOn (a : Action α) (f : Store → Except Failure α) (ha : a.Reads f)
    (w : Workspace) : (a.runOn w).1 = f w.store := by
  obtain ⟨records, hrecords⟩ := ha w
  rw [hrecords]

theorem Reads.exists_runOn_eq (a : Action α) (f : Store → Except Failure α) (ha : a.Reads f)
    (w : Workspace) : ∃ w', a.runOn w = (f w.store, w') ∧ w'.store = w.store := by
  obtain ⟨records, hrecords⟩ := ha w
  exact ⟨_, hrecords, rfl⟩

end Action

end LocaleKeys
