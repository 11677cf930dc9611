import LocaleKeys.Log.File
import LocaleKeys.Number.Reading

/-!
# The state of logging

Records are put into the queues that are attached, and wait there. The listener reads one queue:
when it is stopped, the records that wait in it go to the console and to the log file. `configure`
sets the threshold, detaches the queues, stops the listener and attaches a new queue with a new
listener; without `force` it does nothing when logging is configured already. A log file that cannot
be opened is reported on the console and left out, and with neither a console nor a file nothing is
attached. `shutdown` stops the listener, detaches the queues and keeps the threshold.
-/

namespace LocaleKeys

structure LogOptions where
  level : Value := .str "INFO"
  console : Bool := true
  file : Option Text := none
  maxBytes : Value := .int 1048576
  backups : Value := .int 2

/-- What takes records from a queue: the number of the queue, whether it writes to the console, and
the file it writes to. -/
structure Listener where
  queue : Nat
  console : Bool
  file : Option LogFile
deriving DecidableEq, Repr

structure Logging where
  /-- The least rank of a record that is taken. -/
  threshold : Nat := Severity.warning.rank
  isConfigured : Bool := false
  /-- The queues made so far, each with the records that wait in it. -/
  queues : List (List Record) := []
  /-- The numbers of the queues that records are put into. -/
  attached : List Nat := []
  listener : Option Listener := none
  /-- What the listeners have written to the console. -/
  console : Text := []
  /-- What has been told about log files that cannot be opened. -/
  notices : Text := []
deriving Repr

namespace Logging

def waiting (l : Logging) (n : Nat) : List Record := l.queues[n]?.getD []

def consoleLines (records : List Record) : Text :=
  records.flatMap fun r => r.consoleLine ++ [.scalar '\n']

def deliver (here : Text) (mask : Mode) (time : Text) (file : Option LogFile)
    (records : List Record) (s : Store) : Store :=
  match file with
  | none => s
  | some f => f.writeAll here mask time records s

/-- Stops the listener: the records that wait in its queue are written. -/
def stop (here : Text) (mask : Mode) (time : Text) (l : Logging) (s : Store) : Logging × Store :=
  match l.listener with
  | none => (l, s)
  | some listener =>
      let records := l.waiting listener.queue
      let lines := if listener.console then consoleLines records else []
      ({ l with
          listener := none
          queues := l.queues.set listener.queue []
          console := l.console ++ lines },
        deliver here mask time listener.file records s)

def detach (l : Logging) : Logging := { l with attached := [] }

/-- Attaches a new queue, and starts a listener that reads it. -/
def attach (console : Bool) (file : Option LogFile) (l : Logging) : Logging :=
  let n := l.queues.length
  { l with
    isConfigured := true
    queues := l.queues ++ [[]]
    attached := l.attached ++ [n]
    listener := some ⟨n, console, file⟩ }

def openFile (here : Text) (mask : Mode) (o : LogOptions) (s : Store) :
    Except Failure (Option LogFile × Text) × Store :=
  match o.file with
  | none | some [] => (.ok (none, []), s)
  | some name =>
      let path := Path.absolute here name
      let notice (e : SystemError) : Except Failure (Option LogFile × Text) :=
        .ok (none, "WARNING: Cannot open log file '" ++ name ++ "': " ++ e.message ++ "\n")
      let refused (f : StoreFault) : Except Failure (Option LogFile × Text) :=
        match f with
        | .system e => notice e
        | f => .error (.ofStore f)
      match LogFile.prepareDirectory here mask path s with
      | (.error f, s) => (refused f, s)
      | (.ok (), s) =>
          match Reading.intOf o.maxBytes, Reading.intOf o.backups with
          | .error f, _ => (.error f, s)
          | _, .error f => (.error f, s)
          | .ok maxBytes, .ok backups =>
              match LogFile.openAt here mask path s with
              | .error f => (refused f, s)
              | .ok (content, s) => (.ok (some { path, maxBytes, backups, content }, []), s)

def configure (here : Text) (mask : Mode) (time : Text) (o : LogOptions) (force : Bool)
    (l : Logging) (s : Store) : Except Failure Unit × Logging × Store :=
  if l.isConfigured && !force then (.ok (), l, s)
  else
    let l := { l with threshold := (Severity.ofValue o.level).rank }
    let (l, s) := stop here mask time l.detach s
    match openFile here mask o s with
    | (.error f, s) => (.error f, l, s)
    | (.ok (file, notice), s) =>
        let l := { l with notices := l.notices ++ notice }
        (.ok (), if o.console || file.isSome then l.attach o.console file else l, s)

def log (r : Record) (l : Logging) : Logging :=
  if r.severity.rank < l.threshold then l
  else { l with queues := l.attached.foldl (fun qs n => qs.modify n (· ++ [r])) l.queues }

def shutdown (here : Text) (mask : Mode) (time : Text) (l : Logging) (s : Store) :
    Logging × Store :=
  let (l, s) := stop here mask time l s
  ({ l.detach with isConfigured := false }, s)

end Logging

end LocaleKeys
