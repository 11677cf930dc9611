import LocaleKeys.Log.State
import Mathlib.Data.List.Induction

/-!
# Calls that concern logging

Logging is configured, given records and ended in any order, and the files may change between two
calls by other means. After every sequence of calls, what is attached is the queue that the listener
reads (`Logging.consistent_after`). The flag that logging is configured is not as reliable: a forced
call that attaches nothing leaves it behind, and until the next call with `force` or the next
shutdown an ordinary call that asks for the console is ignored
(`Logging.console_attaches_iff_not_lapsed`).
-/

namespace LocaleKeys

/-- A call that concerns logging, or a change of the files between two calls. -/
inductive LogCall where
  | configure (here : Text) (mask : Mode) (time : Text) (o : LogOptions) (force : Bool)
  | log (r : Record)
  | shutdown (here : Text) (mask : Mode) (time : Text)
  | outside (s : Store)

/-- What a call leaves of logging and of the files, also if it fails. -/
def LogCall.apply : LogCall → Logging × Store → Logging × Store
  | configure here mask time o force, (l, s) => (Logging.configure here mask time o force l s).2
  | log r, (l, s) => (l.log r, s)
  | shutdown here mask time, (l, s) => l.shutdown here mask time s
  | outside s, (l, _) => (l, s)

namespace Logging

def calls (cs : List LogCall) (st : Logging × Store) : Logging × Store :=
  cs.foldl (fun st c => c.apply st) st

def after (cs : List LogCall) (s : Store) : Logging × Store := calls cs ({}, s)

@[simp] theorem after_concat (cs : List LogCall) (c : LogCall) (s : Store) :
    after (cs ++ [c]) s = c.apply (after cs s) := by
  rw [after, calls, List.foldl_append]; rfl

section Configure

variable (here : Text) (mask : Mode) (time : Text) (o : LogOptions) (l : Logging) (s : Store)

/-- The records that wait for the console. -/
def pending : List Record :=
  match l.listener with
  | none => []
  | some listener => if listener.console then l.waiting listener.queue else []

@[simp] theorem attached_stop : (stop here mask time l s).1.attached = l.attached := by
  unfold stop; cases l.listener <;> rfl

@[simp] theorem listener_stop : (stop here mask time l s).1.listener = none := by
  unfold stop; cases h : l.listener <;> simp [h]

@[simp] theorem isConfigured_stop : (stop here mask time l s).1.isConfigured = l.isConfigured := by
  unfold stop; cases l.listener <;> rfl

@[simp] theorem threshold_stop : (stop here mask time l s).1.threshold = l.threshold := by
  unfold stop; cases l.listener <;> rfl

@[simp] theorem notices_stop : (stop here mask time l s).1.notices = l.notices := by
  unfold stop; cases l.listener <;> rfl

@[simp] theorem console_stop :
    (stop here mask time l s).1.console = l.console ++ consoleLines l.pending := by
  unfold stop pending
  cases l.listener with
  | none => exact (List.append_nil _).symm
  | some listener => cases h : listener.console <;> simp [h, consoleLines]

/-- What a call of `configure` that takes effect has made of logging before it opens a log file. -/
def cleared : Logging × Store :=
  stop here mask time { l with threshold := (Severity.ofValue o.level).rank }.detach s

@[simp] theorem attached_cleared : (cleared here mask time o l s).1.attached = [] :=
  attached_stop ..

@[simp] theorem listener_cleared : (cleared here mask time o l s).1.listener = none :=
  listener_stop ..

@[simp] theorem isConfigured_cleared :
    (cleared here mask time o l s).1.isConfigured = l.isConfigured := isConfigured_stop ..

@[simp] theorem threshold_cleared :
    (cleared here mask time o l s).1.threshold = (Severity.ofValue o.level).rank :=
  threshold_stop ..

@[simp] theorem console_cleared :
    (cleared here mask time o l s).1.console = l.console ++ consoleLines l.pending :=
  console_stop ..

def noted (notice : Text) (l : Logging) : Logging := { l with notices := l.notices ++ notice }

/-- What a call of `configure` that takes effect gives and leaves: the log file cannot be opened for
a reason that is not handled, or there is nothing to write to, or a queue is attached. -/
inductive Reconfigured : Except Failure Unit → Logging → Store → Prop where
  | failed (f : Failure) (s' : Store)
      (hopen : openFile here mask o (cleared here mask time o l s).2 = (.error f, s')) :
      Reconfigured (.error f) (cleared here mask time o l s).1 s'
  | mute (notice : Text) (s' : Store) (hconsole : o.console = false)
      (hopen : openFile here mask o (cleared here mask time o l s).2 = (.ok (none, notice), s')) :
      Reconfigured (.ok ()) ((cleared here mask time o l s).1.noted notice) s'
  | attached (file : Option LogFile) (notice : Text) (s' : Store)
      (hsink : o.console = true ∨ file.isSome)
      (hopen : openFile here mask o (cleared here mask time o l s).2 = (.ok (file, notice), s')) :
      Reconfigured (.ok ()) (((cleared here mask time o l s).1.noted notice).attach o.console file)
        s'

theorem configure_of_isConfigured (h : l.isConfigured = true) :
    configure here mask time o false l s = (.ok (), l, s) := by
  rw [configure, h]; rfl

theorem configure_eq (force : Bool) (h : force = true ∨ l.isConfigured = false) :
    configure here mask time o force l s =
      match openFile here mask o (cleared here mask time o l s).2 with
      | (.error f, s') => (.error f, (cleared here mask time o l s).1, s')
      | (.ok (file, notice), s') =>
          (.ok (), if o.console || file.isSome then
              ((cleared here mask time o l s).1.noted notice).attach o.console file
            else (cleared here mask time o l s).1.noted notice, s') := by
  have heffect : (l.isConfigured && !force) = false := by rcases h with h | h <;> simp [h]
  rw [configure, heffect]
  rfl

/-- A call of `configure` that takes effect goes one of three ways. -/
theorem exists_configure_eq (force : Bool) (h : force = true ∨ l.isConfigured = false) :
    ∃ result l' s', configure here mask time o force l s = (result, l', s') ∧
      Reconfigured here mask time o l s result l' s' := by
  rw [configure_eq here mask time o l s force h]
  rcases hopen : openFile here mask o (cleared here mask time o l s).2 with ⟨f | ⟨file, notice⟩, s'⟩
  · exact ⟨_, _, _, rfl, .failed f s' hopen⟩
  · by_cases hsink : (o.console || file.isSome) = true
    · exact ⟨_, _, _, by simp only [hsink, if_true],
        .attached file notice s' (by simpa using hsink) hopen⟩
    · obtain ⟨hconsole, rfl⟩ : o.console = false ∧ file = none := by simpa using hsink
      exact ⟨_, _, _, by simp [hconsole], .mute notice s' hconsole hopen⟩

end Configure

section Log

variable (r : Record) (l : Logging)

@[simp] theorem listener_log : (l.log r).listener = l.listener := by
  rw [log]; split <;> rfl

@[simp] theorem console_log : (l.log r).console = l.console := by
  rw [log]; split <;> rfl

@[simp] theorem notices_log : (l.log r).notices = l.notices := by
  rw [log]; split <;> rfl

end Log

/-- What is attached is the queue that the listener reads, and nothing else. -/
structure Consistent (l : Logging) : Prop where
  attached : l.attached = (l.listener.map (·.queue)).toList
  queue_lt : ∀ listener, l.listener = some listener → listener.queue < l.queues.length
  isConfigured : l.listener.isSome → l.isConfigured = true

section Consistent

variable {l : Logging}

theorem consistent_of_idle (hattached : l.attached = []) (hlistener : l.listener = none) :
    l.Consistent where
  attached := by rw [hattached, hlistener]; rfl
  queue_lt := by simp [hlistener]
  isConfigured := by simp [hlistener]

theorem consistent_attach (hattached : l.attached = []) (console : Bool) (file : Option LogFile) :
    (l.attach console file).Consistent where
  attached := by rw [attach, hattached]; rfl
  queue_lt := by
    rintro listener ⟨⟩
    simp [attach]
  isConfigured _ := rfl

theorem Consistent.log (h : l.Consistent) (r : Record) : (l.log r).Consistent := by
  rw [Logging.log]
  split
  · exact h
  · refine ⟨h.attached, fun listener hlistener => ?_, h.isConfigured⟩
    have hlt := h.queue_lt listener hlistener
    rw [h.attached, hlistener]
    simpa using hlt

theorem Consistent.configure (h : l.Consistent) (here : Text) (mask : Mode) (time : Text)
    (o : LogOptions) (force : Bool) (s : Store) :
    (configure here mask time o force l s).2.1.Consistent := by
  by_cases heffect : force = true ∨ l.isConfigured = false
  · obtain ⟨result, l', s', hrun, hcase⟩ := exists_configure_eq here mask time o l s force heffect
    rw [hrun]
    cases hcase with
    | failed f => exact consistent_of_idle (attached_cleared ..) (listener_cleared ..)
    | mute notice => exact consistent_of_idle (attached_cleared ..) (listener_cleared ..)
    | attached file notice =>
        refine consistent_attach ?_ o.console file
        exact attached_cleared ..
  · obtain ⟨rfl, hconfigured⟩ : force = false ∧ l.isConfigured = true := by simpa using heffect
    rwa [configure_of_isConfigured here mask time o l s hconfigured]

theorem consistent_shutdown (l : Logging) (here : Text) (mask : Mode) (time : Text) (s : Store) :
    (l.shutdown here mask time s).1.Consistent := consistent_of_idle rfl (listener_stop ..)

theorem Consistent.apply {st : Logging × Store} (h : st.1.Consistent) (c : LogCall) :
    (c.apply st).1.Consistent := by
  cases c with
  | configure here mask time o force => exact h.configure here mask time o force st.2
  | log r => exact h.log r
  | shutdown here mask time => exact consistent_shutdown st.1 here mask time st.2
  | outside s => exact h

/-- After every sequence of calls, what is attached is the queue that the listener reads. -/
theorem consistent_after (s : Store) (cs : List LogCall) : (after cs s).1.Consistent := by
  induction cs using List.reverseRecOn with
  | nil => exact consistent_of_idle rfl rfl
  | append_singleton cs c ih => rw [after_concat]; exact ih.apply c

theorem Consistent.attached_cases (h : l.Consistent) :
    (l.listener = none ∧ l.attached = []) ∨
      ∃ listener, l.listener = some listener ∧ l.attached = [listener.queue] := by
  have hattached := h.attached
  rcases hlistener : l.listener with _ | listener <;> rw [hlistener] at hattached
  · exact .inl ⟨rfl, hattached⟩
  · exact .inr ⟨listener, rfl, hattached⟩

end Consistent

section Lapse

/-- The flag that logging is configured, without a listener. -/
def IsStale (l : Logging) : Prop := l.isConfigured = true ∧ l.listener = none

theorem isConfigured_apply (c : LogCall) (hc : ∀ here mask time, c ≠ .shutdown here mask time)
    (st : Logging × Store) (h : st.1.isConfigured = true) : (c.apply st).1.isConfigured = true := by
  obtain ⟨l, s⟩ := st
  cases c with
  | configure here mask time o force =>
      by_cases heffect : force = true ∨ l.isConfigured = false
      · obtain ⟨result, l', s', hrun, hcase⟩ := exists_configure_eq here mask time o l s force
          heffect
        rw [LogCall.apply, hrun]
        cases hcase with
        | failed f => rwa [isConfigured_cleared]
        | mute notice => exact (isConfigured_cleared ..).trans h
        | attached file notice => rfl
      · obtain ⟨rfl, -⟩ : force = false ∧ l.isConfigured = true := by simpa using heffect
        rwa [LogCall.apply, configure_of_isConfigured here mask time o l s h]
  | log r => rw [LogCall.apply, log]; split <;> exact h
  | shutdown here mask time => exact absurd rfl (hc here mask time)
  | outside s' => exact h

theorem IsStale.apply_cases {c : LogCall} {st : Logging × Store} (h : (c.apply st).1.IsStale) :
    (∀ here mask time, c ≠ .shutdown here mask time) ∧
      (st.1.IsStale ∨
        ∃ here mask time o, c = .configure here mask time o true ∧ st.1.listener.isSome) := by
  obtain ⟨l, s⟩ := st
  cases c with
  | configure here mask time o force =>
      refine ⟨fun _ _ => nofun, ?_⟩
      by_cases heffect : force = true ∨ l.isConfigured = false
      · obtain ⟨result, l', s', hrun, hcase⟩ := exists_configure_eq here mask time o l s force
          heffect
        obtain ⟨hflag, hnone⟩ := h
        rw [LogCall.apply, hrun] at hflag hnone
        have hbefore : l.isConfigured = true := by
          cases hcase with
          | failed f => rwa [isConfigured_cleared] at hflag
          | mute notice => exact (isConfigured_cleared ..).symm.trans hflag
          | attached file notice => exact nomatch hnone
        obtain rfl : force = true := by simpa [hbefore] using heffect
        rcases hlistener : l.listener with _ | listener
        · exact .inl ⟨hbefore, hlistener⟩
        · exact .inr ⟨here, mask, time, o, rfl, rfl⟩
      · obtain ⟨rfl, hconfigured⟩ : force = false ∧ l.isConfigured = true := by simpa using heffect
        rw [LogCall.apply, configure_of_isConfigured here mask time o l s hconfigured] at h
        exact .inl h
  | log r =>
      refine ⟨fun _ _ => nofun, .inl ?_⟩
      rw [LogCall.apply, log] at h
      split at h <;> exact h
  | shutdown here mask time => exact nomatch h.1
  | outside s' => exact ⟨fun _ _ => nofun, .inl h⟩

/-- Whether a forced call of `configure` has taken the listener away without starting another, and
no listener has been started since then, nor logging shut down. -/
def Lapsed (s : Store) (cs : List LogCall) : Prop :=
  ∃ before here mask time o since, cs = before ++ .configure here mask time o true :: since ∧
    (after before s).1.listener.isSome ∧
    (∀ here mask time, .shutdown here mask time ∉ since) ∧
    ∀ cs', cs' <+: since →
      (after (before ++ .configure here mask time o true :: cs') s).1.listener = none

theorem lapsed_of_isStale (s : Store) (cs : List LogCall) (h : (after cs s).1.IsStale) :
    Lapsed s cs := by
  induction cs using List.reverseRecOn with
  | nil => exact nomatch h.1
  | append_singleton cs c ih =>
      have hnow := h.2
      rw [after_concat] at h
      obtain ⟨hc, hstale | ⟨here, mask, time, o, rfl, hlistener⟩⟩ := h.apply_cases
      · obtain ⟨before, here, mask, time, o, since, rfl, hlistener, hshutdown, hnone⟩ := ih hstale
        refine ⟨before, here, mask, time, o, since ++ [c], by simp, hlistener, ?_, ?_⟩
        · intro here mask time hmem
          rcases List.mem_append.1 hmem with hmem | hmem
          · exact hshutdown here mask time hmem
          · exact hc here mask time (List.mem_singleton.1 hmem).symm
        · intro cs' hfront
          rcases List.prefix_concat_iff.1 hfront with rfl | hfront
          · simpa using hnow
          · exact hnone cs' hfront
      · refine ⟨cs, here, mask, time, o, [], rfl, hlistener, by simp, fun cs' hfront => ?_⟩
        obtain rfl := List.prefix_nil.1 hfront
        exact hnow

theorem isConfigured_after_append (s : Store) (cs since : List LogCall)
    (h : (after cs s).1.isConfigured = true)
    (hshutdown : ∀ here mask time, .shutdown here mask time ∉ since) :
    (after (cs ++ since) s).1.isConfigured = true := by
  induction since using List.reverseRecOn with
  | nil => rwa [List.append_nil]
  | append_singleton since c ih =>
      rw [← List.append_assoc, after_concat]
      refine isConfigured_apply c ?_ _ (ih ?_)
      · rintro here mask time rfl
        exact hshutdown here mask time (by simp)
      · exact fun here mask time hmem => hshutdown here mask time (List.mem_append_left _ hmem)

/-- The flag is without a listener if, and only if, a forced call has left it behind. -/
theorem isStale_after_iff (s : Store) (cs : List LogCall) :
    (after cs s).1.IsStale ↔ Lapsed s cs := by
  refine ⟨lapsed_of_isStale s cs, ?_⟩
  rintro ⟨before, here, mask, time, o, since, rfl, hlistener, hshutdown, hnone⟩
  refine ⟨isConfigured_after_append s before _
    ((consistent_after s before).isConfigured hlistener) ?_, hnone since (List.prefix_refl _)⟩
  intro here' mask' time' hmem
  rcases List.mem_cons.1 hmem with heq | hmem
  · exact nomatch heq
  · exact hshutdown here' mask' time' hmem

end Lapse

def IsListening (l : Logging) : Prop :=
  ∃ listener, l.listener = some listener ∧ l.attached = [listener.queue]

theorem Consistent.isListening_iff {l : Logging} (h : l.Consistent) :
    l.IsListening ↔ l.listener ≠ none := by
  rcases h.attached_cases with ⟨hnone, -⟩ | ⟨listener, hsome, hattached⟩
  · simp [IsListening, hnone]
  · simp [IsListening, hsome, hattached]

theorem exists_configure_console (here : Text) (mask : Mode) (time : Text) (o : LogOptions)
    (force : Bool) (l : Logging) (s : Store) (hconsole : o.console = true)
    (hfile : o.file = none ∨ o.file = some [])
    (heffect : force = true ∨ l.isConfigured = false) :
    ∃ l' s', configure here mask time o force l s = (.ok (), l', s') ∧ l'.IsListening := by
  have hopen : openFile here mask o (cleared here mask time o l s).2 =
      (.ok (none, []), (cleared here mask time o l s).2) := by
    rcases hfile with h | h <;> rw [openFile, h]
  refine ⟨_, _, by rw [configure_eq here mask time o l s force heffect, hopen], ?_⟩
  rw [hconsole]
  refine ⟨_, rfl, ?_⟩
  change (cleared here mask time o l s).1.attached ++ _ = _
  rw [attached_cleared]
  rfl

/-- After any calls, a call of `configure` for the console, with no log file, succeeds, and there is
a listener afterwards whose queue alone is attached, unless the call is not forced and the flag has
been left behind. Only then does the flag say something wrong. -/
theorem console_attaches_iff_not_lapsed (s : Store) (cs : List LogCall) (here : Text) (mask : Mode)
    (time : Text) (o : LogOptions) (force : Bool) (hconsole : o.console = true)
    (hfile : o.file = none ∨ o.file = some []) :
    (∃ l s', configure here mask time o force (after cs s).1 (after cs s).2 = (.ok (), l, s') ∧
      (l.IsListening ↔ force = true ∨ ¬ Lapsed s cs)) ∧
    (((after cs s).1.isConfigured = true → (after cs s).1.IsListening) ↔ ¬ Lapsed s cs) := by
  have hconsistent := consistent_after s cs
  rw [← isStale_after_iff, IsStale, not_and]
  rcases hst : after cs s with ⟨l, s₁⟩
  rw [hst] at hconsistent
  refine ⟨?_, by rw [hconsistent.isListening_iff]⟩
  by_cases heffect : force = true ∨ l.isConfigured = false
  · obtain ⟨l', s', hrun, hlistening⟩ :=
      exists_configure_console here mask time o force l s₁ hconsole hfile heffect
    refine ⟨l', s', hrun, iff_of_true hlistening ?_⟩
    rcases heffect with hforce | hflag
    · exact .inl hforce
    · exact .inr fun h => absurd h (by simp [hflag])
  · obtain ⟨rfl, hconfigured⟩ : force = false ∧ l.isConfigured = true := by simpa using heffect
    refine ⟨l, s₁, configure_of_isConfigured here mask time o l s₁ hconfigured, ?_⟩
    rw [hconsistent.isListening_iff]
    simp [hconfigured]

/-- Calls that leave the flag behind: logging is configured for the console, then forced to write
nowhere. -/
def lapsingCalls : List LogCall :=
  [.configure [] 0 [] {} false, .configure [] 0 [] { console := false } true]

theorem console_attaches_iff_not_lapsed_forced :
    ({} : LogOptions).console = true ∧ ({} : LogOptions).file = none ∧
    ∃ l s', configure [] 0 [] {} true (after lapsingCalls .empty).1 (after lapsingCalls .empty).2 =
      (.ok (), l, s') ∧ l.IsListening := by
  obtain ⟨⟨l, s', hrun, hiff⟩, -⟩ :=
    console_attaches_iff_not_lapsed .empty lapsingCalls [] 0 [] {} true rfl (.inl rfl)
  exact ⟨rfl, rfl, l, s', hrun, hiff.2 (.inl rfl)⟩

/-- An ordinary call for the console does nothing once the flag has been left behind. -/
theorem not_every_console_call_attaches :
    ¬ ∀ (s : Store) (cs : List LogCall) (o : LogOptions) (force : Bool), o.console = true →
      o.file = none →
      (configure [] 0 [] o force (after cs s).1 (after cs s).2).2.1.IsListening := by
  intro h
  obtain ⟨listener, hlistener, -⟩ := h .empty lapsingCalls {} false rfl rfl
  exact nomatch hlistener

end Logging

end LocaleKeys
