import LocaleKeys.Run.Generation

/-!
# Properties that go along with the parts of an action

A property of actions is compositional if the small actions have it, and an action in two parts has
it as soon as both parts do. Writing and staging artifacts have every such property, and so does
formatting files if the call of the formatter and the interruption have it.
-/

namespace LocaleKeys

theorem mapError_ne_interrupted {ε α : Type} (f : ε → Failure) (hf : ∀ e, f e ≠ .interrupted)
    (x : Except ε α) : x.mapError f ≠ .error .interrupted := by
  cases x with
  | error e => exact fun h => hf e (Except.error.inj h)
  | ok a => exact nofun

theorem ofStore_ne_interrupted (f : StoreFault) : Failure.ofStore f ≠ .interrupted := by
  rcases f with e | f | f <;> exact nofun

namespace Action

/-- Whether a property of actions goes along with their parts. -/
structure IsCompositional (P : ∀ α : Type, Action α → Prop) : Prop where
  pure : ∀ {α : Type} (x : α), P α (pure x)
  bind : ∀ {α β : Type} {a : Action α} {k : α → Action β}, P α a → (∀ x, P β (k x)) →
    P β (a >>= k)
  failing : ∀ {α : Type} (f : Failure), f ≠ .interrupted → P α (throw f)
  record : ∀ severity source message, P Unit (record severity source message)
  inspect : ∀ {α : Type} (f : Store → α), P α (inspect f)
  ofStore : ∀ {α : Type} (f : Store → Except Failure α), (∀ s, f s ≠ .error .interrupted) →
    P α (ofStore f)
  change : ∀ {α : Type} (f : Store → Except StoreFault α × Store), P α (change f)

namespace IsCompositional

variable {P : ∀ α : Type, Action α → Prop} (hP : IsCompositional P) (host : Host)
include hP

theorem of_encode (a : Artifact) :
    P Bytes (Action.ofStore fun _ => a.encode.mapError Failure.encoding) :=
  hP.ofStore _ fun _ => mapError_ne_interrupted Failure.encoding (fun _ => nofun) a.encode

theorem read {α : Type} (f : Store → Except StoreFault α) : P α (Action.read f) :=
  hP.ofStore _ fun s => mapError_ne_interrupted Failure.ofStore ofStore_ne_interrupted (f s)

theorem writeOver (path : Text) (held : Option Bytes) (data : Bytes) :
    P Unit (Artifact.writeOver host path held data) := by
  unfold Artifact.writeOver
  split
  · exact hP.record _ _ _
  · exact hP.bind (hP.change _) fun _ => hP.record _ _ _

theorem write (directory : Text) (skip : Bool) (a : Artifact) :
    P Text (Artifact.write host directory skip a) := by
  refine hP.bind (hP.of_encode a) fun data => ?_
  cases skip with
  | false =>
      exact hP.bind (hP.pure none) fun held => hP.bind (hP.writeOver host _ held data) fun _ =>
        hP.pure _
  | true =>
      exact hP.bind (hP.read _) fun held => hP.bind (hP.writeOver host _ held data) fun _ =>
        hP.pure _

theorem writeAll (directory : Text) (skip : Bool) (as : List Artifact) :
    P (List Text) (Artifact.writeAll host directory skip as) := by
  induction as with
  | nil => exact hP.pure []
  | cons a as ih =>
      exact hP.bind (hP.write host directory skip a) fun path => hP.bind ih fun paths =>
        hP.pure (path :: paths)

theorem stage (staging : Text) (as : List Artifact) :
    P (List Text) (Verification.stage host staging as) := by
  induction as with
  | nil => exact hP.pure []
  | cons a as ih =>
      exact hP.bind (hP.of_encode a) fun data => hP.bind (hP.change _) fun _ =>
        hP.bind ih fun paths => hP.pure (Path.join staging a.name :: paths)

variable (hinterrupted : P Bool (throw .interrupted))
  (hcall : ∀ tool arguments, P ToolOutcome (Formatter.call host tool arguments))
include hinterrupted hcall

theorem format (executable : Option Text) (paths : List Text) :
    P Bool (Formatter.format host executable paths) := by
  unfold Formatter.format
  split
  · exact hP.pure false
  · split
    · exact hP.bind (hP.record _ _ _) fun _ => hP.pure false
    · next tool hfind =>
        refine hP.bind (hP.record _ _ _) fun _ => hP.bind (hcall tool _) fun outcome => ?_
        cases outcome with
        | interrupted => exact hinterrupted
        | undecoded f => exact hP.failing (.decoding f) nofun
        | notStarted e => exact hP.bind (hP.record _ _ _) fun _ => hP.pure false
        | finished exit output errors =>
            simp only
            split
            all_goals exact hP.bind (hP.record _ _ _) fun _ => hP.pure _

theorem formatWith (s : Settings) (paths : List Text) :
    P Bool (Run.formatWith host s paths) := by
  unfold Run.formatWith
  split
  · exact hP.format host hinterrupted hcall (some s.formatter) paths
  · exact hP.pure false

end IsCompositional

end Action

end LocaleKeys
