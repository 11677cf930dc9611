import LocaleKeys.Proofs.Artifact.Verification
import LocaleKeys.Proofs.Log.Calls

/-!
# What keeping a log file changes

Keeping a log file makes the directories on the way to it that are missing, the file, and its
backups; no other entry changes (`LogFile.ChangesOnly`). Each operation has a lemma of its own:
opening makes the directories and the file, rotating gives up or moves what has the path of a backup
or of the file, and appending changes the file. Together they keep what is beside the log as it was,
however many lines are written (`LogFile.changesOnly_writeAll`).
-/

namespace LocaleKeys

theorem Digits.slash_not_mem_ofNat (n : Nat) : Path.slash ∉ Text.ofNat n := by
  intro h
  obtain ⟨c, hc, hslash⟩ := List.mem_map.1 h
  have hdigit := Digits.isDigit_of_mem_padded 0 n c (by simpa [Digits.padded] using hc)
  rw [CodePoint.scalar.inj hslash] at hdigit
  exact absurd hdigit (by decide)

theorem Path.rooted_append (k : Nat) (names : List Text) (n t : Text) :
    Path.rooted k (names ++ [n]) ++ t = Path.rooted k (names ++ [n ++ t]) := by
  rw [Path.rooted, Path.rooted, Text.join_append_singleton, Text.join_append_singleton]
  simp

theorem Path.isAbsolute_directory_rooted (k : Nat) (names : List Text)
    (hnames : ∀ n ∈ names, Path.IsEntryName n) :
    Path.isAbsolute (Path.directory (Path.rooted (k + 1) names)) = true := by
  rcases List.eq_nil_or_concat names with rfl | ⟨above, name, rfl⟩
  · have hroot : Path.rooted (k + 1) [] = Text.fill (k + 1) Path.slash := List.append_nil _
    have hkeep : (Text.fill (k + 1) Path.slash).reverse.dropWhile (· ≠ Path.slash) =
        Text.fill (k + 1) Path.slash := by
      rw [Text.fill, List.reverse_replicate, List.replicate_succ,
        List.dropWhile_cons_of_neg (by simp)]
    have htrimmed : (Text.fill (k + 1) Path.slash).dropWhile (· = Path.slash) = [] := by
      rw [List.dropWhile_eq_nil_iff]
      exact fun c hc => decide_eq_true (List.eq_of_mem_replicate hc)
    rw [hroot, Path.directory, hkeep, List.reverse_reverse, htrimmed]
    simp only [List.reverse_nil, List.isEmpty_nil, if_true]
    rw [Text.fill, List.reverse_replicate]
    rfl
  · rw [List.concat_eq_append] at hnames ⊢
    rw [Path.directory_rooted k above (fun n hn => hnames n (List.mem_append_left _ hn)) name
      (hnames name (List.mem_append_right _ List.mem_cons_self)).slash_not_mem]
    rfl

namespace Store

theorem lookup_map_move (l m k : Location) (hm : ¬ m <+: k) (es : List (Location × Entry)) :
    (es.map fun (j, e) => (if l.isPrefixOf j then m ++ j.drop l.length else j, e)).lookup k =
      if l <+: k then none else es.lookup k := by
  induction es with
  | nil => simp
  | cons x es ih =>
      obtain ⟨j, e⟩ := x
      rw [List.map_cons, List.lookup_cons, ih, List.lookup_cons]
      by_cases hj : l <+: j
      · have hmoved : (k == m ++ j.drop l.length) = false := by
          rw [beq_eq_false_iff_ne]
          rintro rfl
          exact hm (List.prefix_append _ _)
        simp only [List.isPrefixOf_iff_prefix.2 hj, if_true, hmoved]
        by_cases hk : l <+: k
        · simp [hk]
        · have hne : (k == j) = false := by
            rw [beq_eq_false_iff_ne]
            rintro rfl
            exact hk hj
          simp [hk, hne]
      · have hstay : l.isPrefixOf j = false := by
          rw [← Bool.not_eq_true, List.isPrefixOf_iff_prefix]
          exact hj
        simp only [hstay, Bool.false_eq_true, if_false]
        by_cases hkj : k = j
        · subst hkj
          simp [hj]
        · have hne : (k == j) = false := beq_eq_false_iff_ne.2 hkj
          rw [hne]

/-- What is not below the new location stays, or has been below the old one and is gone. -/
theorem get?_moveTree (s : Store) (l m k : Location) (hm : ¬ m <+: k) :
    (s.moveTree l m).get? k = s.get? k ∨ l <+: k ∧ (s.moveTree l m).get? k = none := by
  by_cases hk : k = []
  · exact .inl (by rw [hk, get?_nil, get?_nil])
  · have hlookup := lookup_map_move l m k hm s.entries
    rw [get?_of_ne_nil _ k hk, get?_of_ne_nil _ k hk]
    by_cases hl : l <+: k
    · exact .inr ⟨hl, by rw [moveTree, hlookup, if_pos hl]⟩
    · exact .inl (by rw [moveTree, hlookup, if_neg hl])

theorem get?_eq_none_of_not_isPresent (s : Store) (here path : Text) (l : Location)
    (hl : s.locate here path = .ok l) (h : s.isPresent here path = false) : s.get? l = none := by
  cases he : s.get? l with
  | none => rfl
  | some e =>
      rw [isPresent, (entry_eq_ok_iff s here path l e).2 ⟨hl, he⟩] at h
      exact nomatch h

end Store

namespace LogFile

/-- Whether two stores differ only in what belongs to a log file: in missing directories on the way
to it, which are made, in the file, and in what is at or below the paths of its backups. A directory
in the place of the file stays as it is. -/
def ChangesOnly (mask : Mode) (path : Text) (backups : Nat) (s s' : Store) : Prop :=
  ∀ l, s'.get? l ≠ s.get? l →
    (l <+: Path.segments (Path.directory path) ∧ s.get? l = none ∧
        s'.get? l = some (.directory (newDirectoryMode mask))) ∨
      (l = Path.segments path ∧ ¬ s.IsDirectoryAt l ∧ ¬ s'.IsDirectoryAt l) ∨
      ∃ n, 0 < n ∧ n ≤ backups ∧ Path.segments (backupPath path n) <+: l

theorem changesOnly_refl (mask : Mode) (path : Text) (backups : Nat) (s : Store) :
    ChangesOnly mask path backups s s := fun _ h => absurd rfl h

section Opening

variable {mask : Mode} (here : Text) (hhere : Path.isAbsolute here = true)
include hhere

theorem get?_makeDirectories (names above : List Text) (s : Store)
    (hnames : ∀ n ∈ above ++ names, Path.IsEntryName n) (l : Location)
    (h : (makeDirectories here mask above names s).2.get? l ≠ s.get? l) :
    l <+: above ++ names ∧ s.get? l = none ∧
      (makeDirectories here mask above names s).2.get? l =
        some (.directory (newDirectoryMode mask)) := by
  induction names generalizing above s with
  | nil => exact absurd rfl h
  | cons name names ih =>
      have hassoc : above ++ name :: names = (above ++ [name]) ++ names := by simp
      rw [hassoc] at hnames ⊢
      have hpath := Path.segments_ofNames (above ++ [name])
        fun n hn => hnames n (List.mem_append_left _ hn)
      unfold makeDirectories at h ⊢
      simp only at h ⊢
      split at h
      · next hpresent =>
          rw [if_pos hpresent]
          exact ih (above ++ [name]) s hnames h
      · next hpresent =>
          rw [if_neg hpresent]
          split at h
          · exact absurd rfl h
          · next l₀ hl₀ =>
              have hmissing := Store.get?_eq_none_of_not_isPresent s here _ l₀ hl₀
                (by simpa using hpresent)
              have hl₀' : l₀ = above ++ [name] :=
                (Store.eq_segments_of_locate_of_isAbsolute s here _ l₀ hhere rfl hl₀).trans hpath
              have hne : l₀ ≠ [] := by simp [hl₀']
              have hset := Store.get?_set_self s l₀ (.directory (newDirectoryMode mask)) hne
              by_cases hstep : (makeDirectories here mask (above ++ [name]) names
                  (s.set l₀ (.directory (newDirectoryMode mask)))).2.get? l =
                    (s.set l₀ (.directory (newDirectoryMode mask))).get? l
              · -- Only the directory that has just been made is new.
                rw [hstep] at h ⊢
                have hl : l = l₀ := by
                  by_contra hl
                  exact h (Store.get?_set_of_ne s l₀ l _ hl)
                subst hl
                exact ⟨hl₀' ▸ List.prefix_append _ _, hmissing, hset⟩
              · obtain ⟨hfront, hnone, hmade⟩ := ih (above ++ [name]) _ hnames hstep
                refine ⟨hfront, ?_, hmade⟩
                rwa [Store.get?_set_of_ne s l₀ l _ ?_] at hnone
                rintro rfl
                rw [hset] at hnone
                exact nomatch hnone

variable (path : Text) (hpath : Path.isAbsolute path = true)
  (hdirectory : Path.isAbsolute (Path.directory path) = true) (backups : Nat)

theorem openAt_eq_ok_cases (hpath : Path.isAbsolute path = true) (s s' : Store) (content : Bytes)
    (h : openAt here mask path s = .ok (content, s')) :
    s.locate here path = .ok (Path.segments path) ∧
      ((s' = s ∧ ∃ mode, s.get? (Path.segments path) = some (.file content mode)) ∨
        s.get? (Path.segments path) = none ∧
          s' = s.set (Path.segments path) (.file [] (newFileMode mask))) := by
  rw [openAt] at h
  split at h
  · exact nomatch h
  · next l hl =>
      obtain rfl := Store.eq_segments_of_locate_of_isAbsolute s here path l hhere hpath hl
      refine ⟨hl, ?_⟩
      split at h
      · next bytes mode hget =>
          obtain ⟨rfl, rfl⟩ := Prod.mk.inj (Except.ok.inj h)
          exact .inl ⟨rfl, mode, hget⟩
      · exact nomatch h
      · next hget =>
          obtain ⟨-, rfl⟩ := Prod.mk.inj (Except.ok.inj h)
          exact .inr ⟨hget, rfl⟩

include hpath in
theorem changesOnly_openAt (s s' : Store) (content : Bytes)
    (h : openAt here mask path s = .ok (content, s')) :
    ChangesOnly mask path backups s s' ∧ ¬ s'.IsDirectoryAt (Path.segments path) := by
  obtain ⟨-, ⟨rfl, mode, hget⟩ | ⟨hget, rfl⟩⟩ :=
    openAt_eq_ok_cases here hhere path hpath s s' content h
  · exact ⟨changesOnly_refl mask path backups s',
      Store.not_isDirectoryAt_of_get?_eq_file _ _ _ _ hget⟩
  · have hne : Path.segments path ≠ [] := by
      intro hnil
      rw [hnil, Store.get?_nil] at hget
      exact nomatch hget
    have hset := Store.get?_set_self s _ (.file [] (newFileMode mask)) hne
    have hfile := Store.not_isDirectoryAt_of_get?_eq_file _ _ _ _ hset
    refine ⟨fun l hl => .inr (.inl ?_), hfile⟩
    obtain rfl : l = Path.segments path := by
      by_contra hne'
      exact hl (Store.get?_set_of_ne s _ l _ hne')
    exact ⟨rfl, Store.not_isDirectoryAt_of_get?_eq_none s _ hget, hfile⟩

include hdirectory in
theorem changesOnly_prepareDirectory (s : Store) :
    ChangesOnly mask path backups s (prepareDirectory here mask path s).2 := by
  intro l hl
  have hprepare : prepareDirectory here mask path s =
      if s.isPresent here (Path.directory path) then (.ok (), s)
      else makeDirectories here mask [] (Path.segments (Path.directory path)) s := rfl
  rw [hprepare] at hl ⊢
  split at hl
  · exact absurd rfl hl
  · next hpresent =>
      rw [if_neg hpresent]
      exact .inl (get?_makeDirectories here hhere _ [] s
        (Path.isEntryName_of_mem_segments _ hdirectory) l hl)

end Opening

/-- Giving a file another path leaves everything else where it is: what has changed is below the new
path, or was below the old one and is gone. -/
theorem get?_rename (here source target : Text) (hhere : Path.isAbsolute here = true)
    (hsource : Path.isAbsolute source = true) (htarget : Path.isAbsolute target = true) (s : Store)
    (l : Location) (htargeted : ¬ Path.segments target <+: l) :
    (rename here source target s).2.get? l = s.get? l ∨
      Path.segments source <+: l ∧ (rename here source target s).2.get? l = none := by
  rw [rename]
  split
  · exact .inl rfl
  · exact .inl rfl
  · next l₀ e m hentry hm =>
      obtain ⟨hl₀, -⟩ := (Store.entry_eq_ok_iff _ _ _ _ _).1 hentry
      obtain rfl := Store.eq_segments_of_locate_of_isAbsolute s here source l₀ hhere hsource hl₀
      obtain rfl := Store.eq_segments_of_locate_of_isAbsolute s here target m hhere htarget hm
      have hne : l ≠ Path.segments target := fun h => htargeted (h ▸ List.prefix_rfl)
      split
      · exact .inl rfl
      · have hmove := Store.get?_moveTree (s.erase (Path.segments target)) (Path.segments source)
          (Path.segments target) l htargeted
        rwa [Store.get?_erase_of_ne s _ l hne] at hmove
      · exact Store.get?_moveTree s _ _ l htargeted

def backupName (name : Text) (n : Nat) : Text := name ++ "." ++ Text.ofNat n

theorem isEntryName_backupName (name : Text) (hname : Path.IsEntryName name) (n : Nat) :
    Path.IsEntryName (backupName name n) := by
  have hdot : Path.slash ∉ Text.ofString "." := by decide
  refine ⟨?_, ?_, ?_, ?_⟩
  · simp [backupName, hname.ne_nil]
  · intro h
    have hlength := congrArg List.length h
    have hpos := List.length_pos_iff.2 hname.ne_nil
    simp only [backupName, List.length_append, show (Text.ofString ".").length = 1 from rfl,
      show Path.dot.length = 1 from rfl] at hlength
    omega
  · intro h
    -- Only the name `.` can be continued to `..` by a dot.
    obtain ⟨c, t, rfl⟩ := List.exists_cons_of_ne_nil hname.ne_nil
    have hlength := congrArg List.length h
    simp only [backupName, List.length_append, List.length_cons,
      show (Text.ofString ".").length = 1 from rfl, show Path.dotDot.length = 2 from rfl] at hlength
    obtain rfl : t = [] := List.length_eq_zero_iff.1 (by omega)
    exact hname.ne_dot (congrArg (fun t => [t]) (List.cons.inj h).1)
  · rw [backupName, List.mem_append, List.mem_append]
    rintro ((h | h) | h)
    · exact hname.slash_not_mem h
    · exact hdot h
    · exact Digits.slash_not_mem_ofNat n h

theorem backupName_ne (name : Text) (n : Nat) : backupName name n ≠ name := by
  intro h
  have hlength := congrArg List.length h
  simp only [backupName, List.length_append, show (Text.ofString ".").length = 1 from rfl]
    at hlength
  omega

/-- Where a log file can be: names that lead from the root to it, and how many slashes its path has
in front besides the first one. -/
structure Place where
  slashes : Nat
  above : List Text
  name : Text
  isEntryName_above : ∀ n ∈ above, Path.IsEntryName n
  isEntryName_name : Path.IsEntryName name

namespace Place

variable {mask : Mode} (p : Place)

def location : Location := p.above ++ [p.name]

def path : Text := Path.rooted (p.slashes + 1) p.location

def backup (n : Nat) : Place :=
  { p with
    name := backupName p.name n
    isEntryName_name := isEntryName_backupName p.name p.isEntryName_name n }

theorem isAbsolute_path : Path.isAbsolute p.path = true := rfl

theorem backupPath_path (n : Nat) : backupPath p.path n = (p.backup n).path := by
  rw [backupPath, path, location, Path.rooted_append, Path.rooted_append]
  rfl

theorem segments_path : Path.segments p.path = p.location := by
  refine Path.segments_rooted p.slashes p.location fun n hn => ?_
  rcases List.mem_append.1 hn with hn | hn
  · exact p.isEntryName_above n hn
  · rw [List.mem_singleton.1 hn]
    exact p.isEntryName_name

theorem segments_directory_path : Path.segments (Path.directory p.path) = p.above := by
  rw [path, location, Path.directory_rooted p.slashes p.above p.isEntryName_above p.name
    p.isEntryName_name.slash_not_mem]
  exact Path.segments_rooted p.slashes p.above p.isEntryName_above

theorem not_prefix_above : ¬ p.location <+: p.above :=
  fun h => absurd h.length_le (by simp [location])

theorem not_backup_prefix (n : Nat) (l : Location) (h : p.location <+: l) :
    ¬ (p.backup n).location <+: l := by
  intro h'
  have hlength : (p.backup n).location.length = p.location.length := by simp [location, backup]
  have heq := (List.prefix_of_prefix_length_le h' h hlength.le).eq_of_length hlength
  exact backupName_ne p.name n (List.cons.inj (List.append_cancel_left heq)).1

theorem changesOnly_iff (backups : Nat) (s s' : Store) :
    ChangesOnly mask p.path backups s s' ↔
      ∀ l, s'.get? l ≠ s.get? l →
        (l <+: p.above ∧ s.get? l = none ∧ s'.get? l = some (.directory (newDirectoryMode mask))) ∨
          (l = p.location ∧ ¬ s.IsDirectoryAt l ∧ ¬ s'.IsDirectoryAt l) ∨
          ∃ n, 0 < n ∧ n ≤ backups ∧ (p.backup n).location <+: l := by
  simp only [ChangesOnly, backupPath_path, segments_path, segments_directory_path]

variable {p}

theorem changesOnly_trans {backups : Nat} {s s' s'' : Store}
    (h : ChangesOnly mask p.path backups s s') (h' : ChangesOnly mask p.path backups s' s'') :
    ChangesOnly mask p.path backups s s'' := by
  rw [changesOnly_iff] at h h' ⊢
  intro l hl
  by_cases hfirst : s'.get? l = s.get? l
  · have hsame : s'.IsDirectoryAt l ↔ s.IsDirectoryAt l := by
      rw [Store.IsDirectoryAt, Store.IsDirectoryAt, hfirst]
    have hsecond := h' l (by rwa [hfirst])
    rwa [hfirst, hsame] at hsecond
  · by_cases hlast : s''.get? l = s'.get? l
    · have hsame : s''.IsDirectoryAt l ↔ s'.IsDirectoryAt l := by
        rw [Store.IsDirectoryAt, Store.IsDirectoryAt, hlast]
      rw [hlast, hsame]
      exact h l hfirst
    · rcases h l hfirst with ⟨hfront, -, hmade⟩ | ⟨rfl, hbefore, -⟩ | hbackup
      · -- A directory that has been made is not changed again.
        rcases h' l hlast with ⟨-, hnone, -⟩ | ⟨-, hnot, -⟩ | hbackup
        · rw [hmade] at hnone
          cases hnone
        · exact absurd ⟨_, hmade⟩ hnot
        · exact .inr (.inr hbackup)
      · rcases h' _ hlast with ⟨hfront, -⟩ | ⟨-, -, hafter⟩ | hbackup
        · exact absurd hfront p.not_prefix_above
        · exact .inr (.inl ⟨rfl, hbefore, hafter⟩)
        · exact .inr (.inr hbackup)
      · exact .inr (.inr hbackup)

theorem isDirectoryAt_iff_of_changesOnly {backups : Nat} {s s' : Store}
    (h : ChangesOnly mask p.path backups s s') :
    s'.IsDirectoryAt p.location ↔ s.IsDirectoryAt p.location := by
  rw [changesOnly_iff] at h
  by_cases hsame : s'.get? p.location = s.get? p.location
  · rw [Store.IsDirectoryAt, Store.IsDirectoryAt, hsame]
  · rcases h _ hsame with ⟨hfront, -⟩ | ⟨-, hbefore, hafter⟩ | ⟨n, -, -, hfront⟩
    · exact absurd hfront p.not_prefix_above
    · exact iff_of_false hafter hbefore
    · exact absurd hfront (p.not_backup_prefix n _ List.prefix_rfl)

variable (p) in
/-- Whether a log file can be in a place: there is no directory there, and nothing below. -/
structure IsClear (s : Store) : Prop where
  file : ¬ s.IsDirectoryAt p.location
  below : ∀ l, p.location <+: l → l ≠ p.location → s.get? l = none

theorem IsClear.of_changesOnly {backups : Nat} {s s' : Store} (hclear : p.IsClear s)
    (h : ChangesOnly mask p.path backups s s') : p.IsClear s' := by
  refine ⟨fun hdir => hclear.file ((isDirectoryAt_iff_of_changesOnly h).1 hdir), ?_⟩
  intro l hbelow hne
  have hnone := hclear.below l hbelow hne
  by_contra hsome
  rcases (p.changesOnly_iff _ _ _).1 h l (by rwa [hnone]) with
    ⟨hfront, -⟩ | ⟨heq, -⟩ | ⟨n, -, -, hfront⟩
  · exact p.not_prefix_above (hbelow.trans hfront)
  · exact hne heq
  · exact p.not_backup_prefix n l hbelow hfront

theorem isClear_of_isTree (s : Store) (hs : s.IsTree) (hfile : ¬ s.IsDirectoryAt p.location) :
    p.IsClear s := by
  refine ⟨hfile, ?_⟩
  rintro l ⟨rest, rfl⟩ hne
  cases rest with
  | nil => exact absurd (List.append_nil p.location) hne
  | cons first rest =>
      have hfirst : s.get? (p.location ++ [first]) = none := by
        by_contra hsome
        obtain ⟨e, he⟩ := Option.ne_none_iff_exists'.1 hsome
        exact hfile (hs _ first e he).2
      have hbelow := Verification.get?_append_eq_none_of_isTree s hs _ hfirst rest
      rwa [List.append_assoc, List.singleton_append] at hbelow

theorem isClear_of_changesOnly {backups : Nat} {s s' : Store}
    (h : ChangesOnly mask p.path backups s s') (hs : s.IsTree)
    (hfile : ¬ s'.IsDirectoryAt p.location) :
    p.IsClear s' :=
  (isClear_of_isTree s hs fun hdir =>
    hfile ((isDirectoryAt_iff_of_changesOnly h).2 hdir)).of_changesOnly h

section Rotation

variable (here : Text) (hhere : Path.isAbsolute here = true)
include hhere

variable (p) in
theorem get?_shiftBackups (n backups : Nat) (hn : n + 1 ≤ backups) (s : Store) (l : Location)
    (hl : ∀ m, 0 < m → m ≤ backups → ¬ (p.backup m).location <+: l) :
    (shiftBackups here p.path n s).2.get? l = s.get? l := by
  induction n generalizing s with
  | zero => rfl
  | succ n ih =>
      have hmove := get?_rename here (p.backup (n + 1)).path (p.backup (n + 2)).path hhere
        (isAbsolute_path _) (isAbsolute_path _) s l
        (by rw [segments_path]; exact hl (n + 2) (by omega) hn)
      rw [segments_path] at hmove
      have hkept := hmove.resolve_right fun h => hl (n + 1) (by omega) (by omega) h.1
      rw [shiftBackups, backupPath_path, backupPath_path]
      rcases hrename : rename here (p.backup (n + 1)).path (p.backup (n + 2)).path s with
        ⟨moved, s₁⟩
      rw [hrename] at hkept
      cases moved with
      | false => exact hkept
      | true => exact (ih (by omega) s₁).trans hkept

variable (f : LogFile) (hpath : f.path = p.path)
include hpath

/-- Rotating gives up or moves what has the path of a backup, and moves the file. -/
theorem changesOnly_rotate (s : Store) (hclear : p.IsClear s) :
    ChangesOnly mask p.path f.backups.toNat s (rotate here f s).2 := by
  rw [rotate]
  split
  · exact changesOnly_refl _ _ _ _
  · next hbackups =>
      rw [changesOnly_iff]
      intro l hl
      by_cases hbackup : ∃ n, 0 < n ∧ n ≤ f.backups.toNat ∧ (p.backup n).location <+: l
      · exact .inr (.inr hbackup)
      · have hbeside : ∀ n, 0 < n → n ≤ f.backups.toNat → ¬ (p.backup n).location <+: l :=
          fun n hpos hle hfront => hbackup ⟨n, hpos, hle, hfront⟩
        have hshift := get?_shiftBackups p here hhere (f.backups.toNat - 1) f.backups.toNat
          (by omega) s l hbeside
        rw [hpath] at hl ⊢
        rcases hshifted : shiftBackups here p.path (f.backups.toNat - 1) s with ⟨moved, s₁⟩
        rw [hshifted] at hshift hl
        cases moved with
        | false => exact absurd hshift hl
        | true =>
            rw [backupPath_path] at hl ⊢
            have hmove := get?_rename here p.path (p.backup 1).path hhere (isAbsolute_path _)
              (isAbsolute_path _) s₁ l
              (by rw [segments_path]; exact hbeside 1 (by omega) (by omega))
            rw [segments_path] at hmove
            rcases hmove with hkept | ⟨hbelow, hgone⟩
            · exact absurd (hkept.trans hshift) hl
            · -- Below the file there was nothing, so that the file itself is what is gone.
              obtain rfl : l = p.location := by
                by_contra hne
                exact hl (hgone.trans (hclear.below l hbelow hne).symm)
              exact .inr (.inl ⟨rfl, hclear.file,
                Store.not_isDirectoryAt_of_get?_eq_none _ _ hgone⟩)

theorem changesOnly_reopen (backups : Nat) (s : Store) :
    ChangesOnly mask p.path backups s (reopen here mask f s).2 := by
  rw [reopen, hpath]
  split
  · next content s' hopen =>
      exact (changesOnly_openAt here hhere _ p.isAbsolute_path backups s s' content hopen).1
  · exact changesOnly_refl _ _ _ _

theorem changesOnly_append (bytes : Bytes) (backups : Nat) (s : Store) :
    ChangesOnly mask p.path backups s (append here bytes f s).2 := by
  rw [append, hpath]
  split
  · next l old mode hentry =>
      obtain ⟨hl, hget⟩ := (Store.entry_eq_ok_iff _ _ _ _ _).1 hentry
      obtain rfl :=
        Store.eq_segments_of_locate_of_isAbsolute s here _ l hhere p.isAbsolute_path hl
      split
      · intro l hl
        obtain rfl : l = Path.segments p.path := by
          by_contra hne
          exact hl (Store.get?_set_of_ne s _ l _ hne)
        have hset := Store.get?_set_self s _ (.file (f.content ++ bytes) mode)
          (Store.ne_nil_of_get?_eq_file s _ _ _ hget)
        exact .inr (.inl ⟨rfl, Store.not_isDirectoryAt_of_get?_eq_file _ _ _ _ hget,
          Store.not_isDirectoryAt_of_get?_eq_file _ _ _ _ hset⟩)
      · exact changesOnly_refl _ _ _ _
  · exact changesOnly_refl _ _ _ _

/-- Making room for a line changes only what belongs to the log file, and leaves the log file where
it is. -/
theorem changesOnly_reopen_rotate (s : Store) (hclear : p.IsClear s) :
    ChangesOnly mask p.path f.backups.toNat s (reopen here mask f (rotate here f s).2).2 :=
  changesOnly_trans (changesOnly_rotate here hhere f hpath s hclear)
    (changesOnly_reopen here hhere f hpath _ _)

omit hhere hpath in
theorem path_and_backups_reopen (s : Store) :
    (reopen here mask f s).1.path = f.path ∧ (reopen here mask f s).1.backups = f.backups := by
  rw [reopen]
  split <;> exact ⟨rfl, rfl⟩

theorem changesOnly_written (hasRoom : Bool) (line : Text) (backups : Nat) (s : Store)
    (result : LogFile × Store)
    (hresult : (match hasRoom, Utf8.encode line with
      | true, .ok bytes => append here bytes f s
      | _, _ => (f, s)) = result) :
    ChangesOnly mask p.path backups s result.2 ∧ result.1.path = f.path ∧
      result.1.backups = f.backups := by
  split at hresult
  · next bytes hencode =>
      subst hresult
      exact ⟨changesOnly_append here hhere f hpath bytes backups s, rfl, rfl⟩
  · subst hresult
    exact ⟨changesOnly_refl _ _ _ _, rfl, rfl⟩

/-- Writing a line changes only what belongs to the log file. -/
theorem changesOnly_write (time : Text) (r : Record) (s : Store) (hclear : p.IsClear s) :
    ChangesOnly mask p.path f.backups.toNat s (write here mask time r f s).2 ∧
      (write here mask time r f s).1.path = f.path ∧
      (write here mask time r f s).1.backups = f.backups := by
  by_cases hfull : isFull here (r.fileLine time ++ "\n") f s = true
  · have hroom : ChangesOnly mask _ _ _ _ :=
      changesOnly_reopen_rotate here hhere f hpath s hclear
    obtain ⟨hpath', hbackups⟩ := path_and_backups_reopen here f (rotate here f s).2
    obtain ⟨hwritten, hsame⟩ := changesOnly_written here hhere
      (reopen here mask f (rotate here f s).2).1 (hpath'.trans hpath) (rotate here f s).1
      (r.fileLine time ++ "\n") f.backups.toNat (reopen here mask f (rotate here f s).2).2 _ rfl
    rw [write, if_pos hfull]
    exact ⟨changesOnly_trans hroom hwritten, hsame.1.trans hpath', hsame.2.trans hbackups⟩
  · rw [write, if_neg hfull]
    exact changesOnly_written here hhere f hpath true (r.fileLine time ++ "\n") f.backups.toNat s
      _ rfl

end Rotation

theorem changesOnly_writeAll (here : Text) (mask : Mode) (time : Text)
    (hhere : Path.isAbsolute here = true) (rs : List Record) (f : LogFile)
    (hpath : f.path = p.path) (s : Store) (hclear : p.IsClear s) :
    ChangesOnly mask p.path f.backups.toNat s (writeAll here mask time rs f s) := by
  induction rs generalizing f s with
  | nil => exact changesOnly_refl _ _ _ _
  | cons r rs ih =>
      obtain ⟨hwrite, hpath', hbackups⟩ := changesOnly_write here hhere f hpath time r s hclear
      have hrest :=
        ih (write here mask time r f s).1 (hpath'.trans hpath) (write here mask time r f s).2
        (hclear.of_changesOnly hwrite)
      rw [hbackups] at hrest
      exact changesOnly_trans hwrite hrest

end Place

theorem exists_place (here name : Text) (hhere : Path.isAbsolute here = true) (s : Store)
    (hfile : ¬ s.IsDirectoryAt (Path.segments (Path.absolute here name))) :
    ∃ p : Place, Path.absolute here name = p.path := by
  have habs := Path.isAbsolute_join_of_isAbsolute here name hhere
  obtain ⟨k, hk⟩ := Path.exists_leading_eq _ habs
  have hnames := Path.isEntryName_of_mem_segments _ habs
  have hrooted : Path.absolute here name =
      Path.rooted (k + 1) (Path.segments (Path.join here name)) := by
    rw [Path.absolute, Path.normal_eq_rooted _ habs, hk]
  have hne : Path.segments (Path.join here name) ≠ [] := by
    intro hnil
    rw [hrooted, Path.segments_rooted k _ hnames, hnil] at hfile
    exact hfile (Store.isDirectoryAt_nil s)
  obtain ⟨above, last, hsegments⟩ := (List.eq_nil_or_concat _).resolve_left hne
  rw [List.concat_eq_append] at hsegments
  rw [hsegments] at hnames hrooted
  exact ⟨⟨k, above, last, fun n hn => hnames n (List.mem_append_left _ hn),
    hnames last (List.mem_append_right _ List.mem_cons_self)⟩, hrooted⟩

theorem isAbsolute_absolute (here name : Text) (hhere : Path.isAbsolute here = true) :
    Path.isAbsolute (Path.absolute here name) = true ∧
      Path.isAbsolute (Path.directory (Path.absolute here name)) = true := by
  have habs := Path.isAbsolute_join_of_isAbsolute here name hhere
  obtain ⟨k, hk⟩ := Path.exists_leading_eq _ habs
  rw [Path.absolute, Path.normal_eq_rooted _ habs, hk]
  exact ⟨rfl, Path.isAbsolute_directory_rooted k _ (Path.isEntryName_of_mem_segments _ habs)⟩

end LogFile

namespace Logging

section Opening

variable (here : Text) (mask : Mode) (time : Text) (hhere : Path.isAbsolute here = true)
  (o : LogOptions)

theorem openFile_of_no_file (hfile : o.file = none ∨ o.file = some []) (s : Store) :
    openFile here mask o s = (.ok (none, []), s) := by
  rcases hfile with h | h <;> rw [openFile, h]

variable (name : Text) (hfile : o.file = some name) (hne : name ≠ [])

include hfile hne in
/-- Opening the log file that options ask for ends after its directory has been made, without a
file, or opens it. -/
theorem openFile_cases (s s' : Store) (result : Except Failure (Option LogFile × Text))
    (h : openFile here mask o s = (result, s')) :
    (s' = (LogFile.prepareDirectory here mask (Path.absolute here name) s).2 ∧
        ∀ f notice, result ≠ .ok (some f, notice)) ∨
      ∃ f notice, result = .ok (some f, notice) ∧ f.path = Path.absolute here name ∧
        Reading.intOf o.backups = .ok f.backups ∧
        LogFile.openAt here mask (Path.absolute here name)
          (LogFile.prepareDirectory here mask (Path.absolute here name) s).2 =
            .ok (f.content, s') := by
  obtain ⟨c, t, rfl⟩ := List.exists_cons_of_ne_nil hne
  simp only [openFile, hfile] at h
  split at h
  · next f s₁ hprepare =>
      obtain ⟨rfl, rfl⟩ := Prod.mk.inj h
      refine .inl ⟨by rw [hprepare], ?_⟩
      cases f <;> simp
  · next s₁ hprepare =>
      split at h
      · obtain ⟨rfl, rfl⟩ := Prod.mk.inj h
        exact .inl ⟨by rw [hprepare], by simp⟩
      · obtain ⟨rfl, rfl⟩ := Prod.mk.inj h
        exact .inl ⟨by rw [hprepare], by simp⟩
      · next maxBytes backups hmax hbackups =>
          split at h
          · next f hopen =>
              obtain ⟨rfl, rfl⟩ := Prod.mk.inj h
              refine .inl ⟨by rw [hprepare], ?_⟩
              cases f <;> simp
          · next content s₂ hopen =>
              obtain ⟨rfl, rfl⟩ := Prod.mk.inj h
              exact .inr ⟨_, _, rfl, rfl, hbackups, by rw [hprepare]; exact hopen⟩

include hhere hfile hne in
/-- Opening the log file that options ask for changes only what belongs to it, and if it is opened,
it is the file at its absolute path. -/
theorem changesOnly_openFile (backups : Nat) (s s' : Store)
    (result : Except Failure (Option LogFile × Text)) (h : openFile here mask o s = (result, s')) :
    LogFile.ChangesOnly mask (Path.absolute here name) backups s s' ∧
      ∀ f notice, result = .ok (some f, notice) →
        f.path = Path.absolute here name ∧ Reading.intOf o.backups = .ok f.backups ∧
          ¬ s'.IsDirectoryAt (Path.segments (Path.absolute here name)) := by
  obtain ⟨hpath, hdirectory⟩ := LogFile.isAbsolute_absolute here name hhere
  have hprepared : LogFile.ChangesOnly mask _ _ _ _ :=
    LogFile.changesOnly_prepareDirectory here hhere _ hdirectory backups s
  rcases openFile_cases here mask o name hfile hne s s' result h with
    ⟨rfl, hnone⟩ | ⟨f, notice, rfl, hf, hbackups, hopen⟩
  · exact ⟨hprepared, fun f notice hf => absurd hf (hnone f notice)⟩
  · obtain ⟨hopened, hplain⟩ :=
      LogFile.changesOnly_openAt here hhere _ hpath backups _ s' f.content hopen
    obtain ⟨p, hplace⟩ := LogFile.exists_place here name hhere s' hplain
    rw [hplace] at hprepared hopened hplain hf ⊢
    refine ⟨LogFile.Place.changesOnly_trans hprepared hopened, fun g notice' hg => ?_⟩
    obtain rfl := Option.some.inj (Prod.mk.inj (Except.ok.inj hg)).1
    exact ⟨hf, hbackups, hplain⟩

end Opening

section Keeping

variable (here : Text) (mask : Mode) (time : Text) (o : LogOptions)

/-- Logging that is configured for the first time opens its log file, and what it has opened is what
its listener writes to. -/
theorem exists_of_first_configure (s s' : Store) (l : Logging)
    (h : configure here mask time o false {} s = (.ok (), l, s')) :
    ∃ file notice, openFile here mask o s = (.ok (file, notice), s') ∧ l.notices = notice ∧
      (∀ listener, l.listener = some listener → listener.file = file) ∧
      ∀ f, file = some f → ∃ listener, l.listener = some listener := by
  obtain ⟨result, l', s₁, hrun, hcase⟩ := exists_configure_eq here mask time o {} s false (.inr rfl)
  obtain ⟨rfl, hrest⟩ := Prod.mk.inj (h.symm.trans hrun)
  obtain ⟨rfl, rfl⟩ := Prod.mk.inj hrest
  cases hcase with
  | mute notice s' hconsole hopen => exact ⟨none, notice, hopen, rfl, nofun, nofun⟩
  | attached file notice s' hsink hopen =>
      refine ⟨file, notice, hopen, rfl, ?_, fun _ _ => ⟨_, rfl⟩⟩
      rintro listener ⟨⟩
      rfl

theorem store_shutdown_of_no_file (l : Logging) (s : Store)
    (h : ∀ listener, l.listener = some listener → listener.file = none) :
    (l.shutdown here mask time s).2 = s := by
  rw [shutdown, stop]
  cases hlistener : l.listener with
  | none => rfl
  | some listener => simp only [h listener hlistener, deliver]

theorem store_shutdown_of_file (l : Logging) (s : Store) (listener : Listener) (f : LogFile)
    (h : l.listener = some listener) (hf : listener.file = some f) :
    (l.shutdown here mask time s).2 = f.writeAll here mask time (l.waiting listener.queue) s := by
  rw [shutdown, stop, h]
  simp only [hf, deliver]

variable (hhere : Path.isAbsolute here = true)

/-- Without a log file logging leaves the files as they are. -/
theorem store_of_session_of_no_file (hfile : o.file = none ∨ o.file = some []) (s s' : Store)
    (l l' : Logging) (h : configure here mask time o false {} s = (.ok (), l, s'))
    (hl : l'.listener = l.listener) : (l'.shutdown here mask time s').2 = s := by
  obtain ⟨file, notice, hopen, -, hsame, -⟩ := exists_of_first_configure here mask time o s s' l h
  rw [openFile_of_no_file here mask o hfile s] at hopen
  obtain ⟨hresult, rfl⟩ := Prod.mk.inj hopen
  obtain ⟨rfl, -⟩ := Prod.mk.inj (Except.ok.inj hresult)
  exact store_shutdown_of_no_file here mask time l' s fun listener h' =>
    hsame listener (hl.symm.trans h')

include hhere in
/-- From the first call of `configure` to the shutdown, logging changes only what belongs to its log
file, whatever is logged in between. -/
theorem changesOnly_session (name : Text) (hfile : o.file = some name) (hne : name ≠ [])
    (backups : Int) (hbackups : Reading.intOf o.backups = .ok backups) (s s' : Store)
    (hs : s.IsTree) (l l' : Logging) (h : configure here mask time o false {} s = (.ok (), l, s'))
    (hl : l'.listener = l.listener) :
    LogFile.ChangesOnly mask (Path.absolute here name) backups.toNat s
      (l'.shutdown here mask time s').2 := by
  obtain ⟨file, notice, hopen, -, hsame, hlistening⟩ :=
    exists_of_first_configure here mask time o s s' l h
  obtain ⟨hopened, hplaced⟩ :=
    changesOnly_openFile here mask hhere o name hfile hne backups.toNat s s' _ hopen
  cases file with
  | none =>
      rwa [store_shutdown_of_no_file here mask time l' s' fun listener h' =>
        hsame listener (hl.symm.trans h')]
  | some f =>
      obtain ⟨hpath, hread, hplain⟩ := hplaced f notice rfl
      obtain rfl := Except.ok.inj (hbackups.symm.trans hread)
      obtain ⟨p, hplace⟩ := LogFile.exists_place here name hhere s' hplain
      rw [hplace] at hopened hplain hpath ⊢
      rw [p.segments_path] at hplain
      obtain ⟨listener, hlistener⟩ := hlistening f rfl
      rw [store_shutdown_of_file here mask time l' s' listener f (hl.trans hlistener)
        (hsame listener hlistener)]
      exact LogFile.Place.changesOnly_trans hopened
        (LogFile.Place.changesOnly_writeAll here mask time hhere _ f hpath s'
          (LogFile.Place.isClear_of_changesOnly hopened hs hplain))

end Keeping

end Logging

end LocaleKeys
