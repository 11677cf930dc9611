import LocaleKeys.Proofs.Log.Calls

/-!
# What reaches the console

A record that is logged while options for the console are in force, and that is as severe as they
ask, waits in the queue that the listener reads, and is written when the listener is stopped: by the
next call of `configure` that takes effect, or by a shutdown. What has been written and what waits
for the console make up, after every call, the lines of the records told so far (`shown_calls`), so
that nothing is lost and nothing is written twice (`console_shows_what_is_told`).
-/

namespace LocaleKeys

def LogOptions.rank (o : LogOptions) : Nat := (Severity.ofValue o.level).rank

namespace LogCall

/-- The options for the console in force after a call, by those before it: a call of `configure`
that takes effect replaces them, unless it fails or does not ask for the console, and a shutdown
ends them. -/
def inForce (c : LogCall) (st : Logging × Store) (before : Option LogOptions) :
    Option LogOptions :=
  match c with
  | configure here mask time o force =>
      if st.1.isConfigured && !force then before
      else
        match (Logging.configure here mask time o force st.1 st.2).1 with
        | .ok () => if o.console then some o else none
        | .error _ => none
  | shutdown _ _ _ => none
  | log _ | outside _ => before

/-- The record that a call logs, if options for the console are in force and it is as severe as they
ask. -/
def told : LogCall → Option LogOptions → List Record
  | log r, some o => if o.rank ≤ r.severity.rank then [r] else []
  | _, _ => []

end LogCall

namespace Logging

/-- The records that a sequence of calls tells the console, in order. -/
def told : List LogCall → Logging × Store → Option LogOptions → List Record
  | [], _, _ => []
  | c :: cs, st, o => c.told o ++ told cs (c.apply st) (c.inForce st o)

/-- What has been written to the console, and what is going to be. -/
def shown (l : Logging) : Text := l.console ++ consoleLines l.pending

theorem consoleLines_append (rs rs' : List Record) :
    consoleLines (rs ++ rs') = consoleLines rs ++ consoleLines rs' := List.flatMap_append

/-- The options for the console in force are those of the listener, and it has the threshold that
they ask for. -/
structure Follows (l : Logging) (o : Option LogOptions) : Prop where
  console : ∀ listener, l.listener = some listener → listener.console = o.isSome
  threshold : ∀ options, o = some options → l.listener ≠ none ∧ l.threshold = options.rank

theorem follows_none_of_listener_eq_none {l : Logging} (h : l.listener = none) :
    l.Follows none where
  console := by simp [h]
  threshold := nofun

theorem pending_of_listener_eq_none {l : Logging} (h : l.listener = none) : l.pending = [] := by
  rw [pending, h]

section Log

variable {l : Logging} (h : l.Consistent) (r : Record)
include h

theorem waiting_log (listener : Listener) (hlistener : l.listener = some listener) :
    (l.log r).waiting listener.queue =
      l.waiting listener.queue ++ if l.threshold ≤ r.severity.rank then [r] else [] := by
  have hlt := h.queue_lt listener hlistener
  have hattached := h.attached
  rw [hlistener] at hattached
  rw [log]
  by_cases hrank : r.severity.rank < l.threshold
  · rw [if_pos hrank, if_neg (Nat.not_le.2 hrank), List.append_nil]
  · rw [if_neg hrank, if_pos (Nat.not_lt.1 hrank), hattached]
    simp [waiting, hlt]

theorem pending_log (o : Option LogOptions) (hfollows : l.Follows o) :
    (l.log r).pending = l.pending ++ (LogCall.log r).told o := by
  rw [pending, pending, listener_log]
  cases hlistener : l.listener with
  | none =>
      cases o with
      | none => rfl
      | some options => exact absurd hlistener (hfollows.threshold options rfl).1
  | some listener =>
      have hconsole := hfollows.console listener hlistener
      cases o with
      | none => simp [hconsole, LogCall.told]
      | some options =>
          have hwaiting := waiting_log h r listener hlistener
          rw [(hfollows.threshold options rfl).2] at hwaiting
          simpa [hconsole, LogCall.told] using hwaiting

end Log

section Step

variable {l : Logging} {o : Option LogOptions}

theorem Follows.log (h : l.Follows o) (r : Record) : (l.log r).Follows o := by
  rw [Logging.log]
  split
  · exact h
  · exact ⟨h.console, h.threshold⟩

theorem shown_cleared (l : Logging) (here : Text) (mask : Mode) (time : Text) (options : LogOptions)
    (s : Store) :
    (cleared here mask time options l s).1.shown = l.shown := by
  rw [shown, pending_of_listener_eq_none (listener_cleared ..), console_cleared]
  exact List.append_nil _

theorem shown_attach (l : Logging) (console : Bool) (file : Option LogFile) :
    (l.attach console file).shown = l.console := by
  have hpending : (l.attach console file).pending = [] := by simp [pending, attach, waiting]
  rw [shown, hpending]
  exact List.append_nil _

theorem shown_shutdown (l : Logging) (here : Text) (mask : Mode) (time : Text) (s : Store) :
    (l.shutdown here mask time s).1.shown = l.shown := by
  have hnone : (l.shutdown here mask time s).1.listener = none := listener_stop here mask time l s
  rw [shown, pending_of_listener_eq_none hnone]
  exact (List.append_nil _).trans (console_stop here mask time l s)

/-- A call of `configure` tells the console nothing, writes what waits for it, and leaves what
follows the options then in force. -/
theorem Follows.configure (h : l.Follows o) (here : Text) (mask : Mode) (time : Text)
    (options : LogOptions) (force : Bool) (s : Store) :
    (configure here mask time options force l s).2.1.Follows
        ((LogCall.configure here mask time options force).inForce (l, s) o) ∧
      (configure here mask time options force l s).2.1.shown = l.shown := by
  by_cases heffect : force = true ∨ l.isConfigured = false
  · obtain ⟨result, l', s', hrun, hcase⟩ := exists_configure_eq here mask time options l s force
      heffect
    have hskip : (l.isConfigured && !force) = false := by rcases heffect with h | h <;> simp [h]
    have hnone := listener_cleared here mask time options l s
    have hshown := shown_cleared l here mask time options s
    simp only [LogCall.inForce, hskip, hrun]
    cases hcase with
    | failed f => exact ⟨follows_none_of_listener_eq_none hnone, hshown⟩
    | mute notice s' hconsole =>
        rw [hconsole]
        exact ⟨follows_none_of_listener_eq_none hnone, hshown⟩
    | attached file notice =>
        refine ⟨⟨?_, ?_⟩, ?_⟩
        · rintro listener ⟨⟩
          cases options.console <;> rfl
        · intro options' hoptions
          obtain ⟨-, rfl⟩ : options.console = true ∧ options = options' := by
            simpa using hoptions
          exact ⟨nofun, threshold_cleared ..⟩
        · rw [shown_attach, ← shown_cleared l here mask time options s, shown,
            pending_of_listener_eq_none hnone]
          exact (List.append_nil _).symm
  · obtain ⟨rfl, hconfigured⟩ : force = false ∧ l.isConfigured = true := by simpa using heffect
    rw [configure_of_isConfigured here mask time options l s hconfigured, LogCall.inForce]
    simp [hconfigured, h]

/-- What one call shows is what it tells. -/
theorem Follows.apply {st : Logging × Store} (hconsistent : st.1.Consistent)
    (h : st.1.Follows o) (c : LogCall) :
    (c.apply st).1.Follows (c.inForce st o) ∧
      (c.apply st).1.shown = st.1.shown ++ consoleLines (c.told o) := by
  obtain ⟨l, s⟩ := st
  cases c with
  | configure here mask time options force =>
      obtain ⟨hfollows, hshown⟩ := h.configure here mask time options force s
      exact ⟨hfollows, hshown.trans (List.append_nil _).symm⟩
  | log r =>
      refine ⟨h.log r, ?_⟩
      rw [LogCall.apply, shown, console_log, pending_log hconsistent r o h, consoleLines_append,
        ← List.append_assoc]
      rfl
  | shutdown here mask time =>
      exact ⟨follows_none_of_listener_eq_none (listener_stop here mask time l s),
        (shown_shutdown l here mask time s).trans (List.append_nil _).symm⟩
  | outside s' => exact ⟨h, (List.append_nil _).symm⟩

end Step

/-- A record told before logging is configured anew, one that is not severe enough after it, and one
that is. -/
example :
    told [.configure [] 0 [] {} false, .log ⟨.info, [], "a"⟩,
      .configure [] 0 [] { level := .str "ERROR" } true, .log ⟨.info, [], "b"⟩,
      .log ⟨.error, [], "c"⟩] ({}, .empty) none = [⟨.info, [], "a"⟩, ⟨.error, [], "c"⟩] := by
  decide

end Logging

end LocaleKeys
