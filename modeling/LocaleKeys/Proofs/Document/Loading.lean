import LocaleKeys.Proofs.Json.Distinct
import LocaleKeys.Proofs.KeyTree.Addressing
import LocaleKeys.Proofs.Run.Action

/-!
# What loading reads

Loading the document looks at the files and makes records, nothing else, so that it is a function of
the store (`loaded`). It gives a tree exactly if each of its stages accepts what the one before it
gives (`loaded_eq_ok_iff`), and that tree has distinct keys that are all usable in a path.
-/

namespace LocaleKeys

namespace Document

def selected (host : Host) (directory : Text) (s : Store) : Except Failure Text :=
  candidates host directory s >>= fun
    | [] => .error (.problem (.noDocument directory))
    | path :: _ => .ok path

theorem reads_discover (host : Host) (directory : Text) :
    (discover host directory).Reads (selected host directory) := by
  refine Action.Reads.bind _ _ _ _ (Action.reads_ofStore _) ?_
  intro paths
  cases paths with
  | nil => exact Action.reads_throw _
  | cons path others =>
      cases others with
      | nil =>
          refine Action.Reads.of_record _ _ _ (Action.reads_record _ _ _) ?_
          exact Action.reads_pure path
      | cons other others =>
          refine Action.Reads.of_record _ _ _ (Action.reads_record _ _ _) ?_
          refine Action.Reads.of_record _ _ _ (Action.reads_record _ _ _) ?_
          exact Action.reads_pure path

theorem reads_unwrap (key : Option Text) (t : KeyTree Json) :
    (unwrap key t).Reads fun _ => (unwrapped key t).mapError .problem := by
  refine Action.Reads.congr _ _ _ (Action.Reads.bind _ _ _ (fun below _ => .ok below)
    (Action.reads_ofProblem _) fun below => ?_) fun s => ?_
  · cases unwrapMessage? key t with
    | none => exact Action.reads_pure below
    | some message =>
        refine Action.Reads.of_record _ _ _ (Action.reads_record _ _ _) ?_
        exact Action.reads_pure below
  · cases unwrapped key t <;> rfl

def loaded (host : Host) (directory : Text) (key : Option Text) (s : Store) :
    Except Failure (Text × KeyTree Json) := do
  let path ← selected host directory s
  let whole ← read host path s
  let tree ← (unwrapped key whole).mapError Failure.problem
  (checkNames tree).mapError Failure.problem
  return (path, tree)

theorem reads_load (host : Host) (directory : Text) (key : Option Text) :
    (load host directory key).Reads (loaded host directory key) := by
  refine Action.Reads.bind _ _ _ _ (reads_discover host directory) fun path => ?_
  refine Action.Reads.bind _ _ _ _ (Action.reads_ofStore _) fun whole => ?_
  refine Action.Reads.bind _ _ _ _ (reads_unwrap key whole) fun tree => ?_
  exact Action.Reads.bind _ _ _ _ (Action.reads_ofProblem _) fun _ => Action.reads_pure _

theorem read_eq_ok_iff (host : Host) (path : Text) (s : Store) (t : KeyTree Json) :
    read host path s = .ok t ↔
      ∃ bytes, host.content path s = .ok bytes ∧ parse path bytes = .ok t := by
  unfold read
  constructor
  · intro h
    split at h
    · next bytes hbytes => exact ⟨bytes, hbytes, h⟩
    · exact nomatch h
    · exact nomatch h
  · rintro ⟨bytes, hbytes, ht⟩
    rw [hbytes]
    exact ht

/-- Loading gives a tree exactly if every stage accepts what the one before it gives. -/
theorem loaded_eq_ok_iff (host : Host) (directory : Text) (key : Option Text) (s : Store)
    (path : Text) (t : KeyTree Json) :
    loaded host directory key s = .ok (path, t) ↔
      selected host directory s = .ok path ∧
        ∃ bytes whole, host.content path s = .ok bytes ∧ parse path bytes = .ok whole ∧
          unwrapped key whole = .ok t ∧ checkNames t = .ok () := by
  constructor
  · intro h
    obtain ⟨path', hselected, h⟩ := exists_of_bind_eq_ok _ _ _ h
    obtain ⟨whole, hread, h⟩ := exists_of_bind_eq_ok _ _ _ h
    obtain ⟨tree, htree, h⟩ := exists_of_bind_eq_ok _ _ _ h
    obtain ⟨⟨⟩, hnames, h⟩ := exists_of_bind_eq_ok _ _ _ h
    obtain ⟨rfl, rfl⟩ := Prod.mk.inj (Except.ok.inj h)
    obtain ⟨bytes, hbytes, hparse⟩ := (read_eq_ok_iff _ _ _ _).1 hread
    exact ⟨hselected, bytes, whole, hbytes, hparse, (mapError_eq_ok_iff _ _ _).1 htree,
      (mapError_eq_ok_iff _ _ _).1 hnames⟩
  · rintro ⟨hselected, bytes, whole, hbytes, hparse, htree, hnames⟩
    have hread := (read_eq_ok_iff host path s whole).2 ⟨bytes, hbytes, hparse⟩
    unfold loaded
    rw [hselected]
    simp only [bind, Except.bind, hread, htree, Except.mapError, hnames]
    rfl

theorem hasDistinctKeys_of_loaded (host : Host) (directory : Text) (key : Option Text) (s : Store)
    (path : Text) (t : KeyTree Json) (h : loaded host directory key s = .ok (path, t)) :
    t.HasDistinctKeys := by
  obtain ⟨-, bytes, whole, -, hparse, hunwrapped, -⟩ := (loaded_eq_ok_iff _ _ _ _ _ _).1 h
  exact hasDistinctKeys_of_unwrapped key whole t (hasDistinctKeys_of_parse path bytes whole hparse)
    hunwrapped

end Document

end LocaleKeys
