import FileRoutes.Proofs.FileSystem.Leading
import FileRoutes.Proofs.FileSystem.Outline
import FileRoutes.Proofs.FileSystem.RealPath

/-! # Where resolving leads

Resolving goes along paths, the system along locations. Names are **traced** (`Traces`) from one
path to another when no link is met again while it is being resolved and the system can be asked
about every path on the way, as none is too long for it. Names that are traced are followed to the
end (`Traces.follow_append`), and the path that they are traced to stands where the system comes to
(`Traces.exists_leads`). Hence a path that is traced, leads to an entry and resolves does both at the
same location (`names_of_resolve`). It need not when a path is too long: a link there is overlooked
(`Traces.resolve_child_of_long`). -/

namespace FileRoutes

namespace Path

/-- A path about which the system can be **asked**. -/
structure IsAskable (path : Path) : Prop where
  /-- It holds no NUL character. -/
  clean : '\x00' ∉ path.text.toList
  /-- It is not too long. -/
  short : path.text.utf8ByteSize < pathLimit

/-- **The bytes of joined names** are those of the names, and one more for each name but the last. -/
theorem utf8ByteSize_joinNames {names : List String} (something : names ≠ []) :
    (String.ofList (joinNames names)).utf8ByteSize + 1 =
      (names.map fun name => name.utf8ByteSize + 1).sum := by
  induction names with
  | nil => exact absurd rfl something
  | cons name names ih =>
    cases names with
    | nil => simp [joinNames, Text.joinFields]
    | cons next names =>
      have slash : (String.ofList ['/']).utf8ByteSize = 1 := by decide
      have joined : joinNames (name :: next :: names) =
          name.toList ++ (['/'] ++ joinNames (next :: names)) := rfl
      rw [List.map_cons, List.sum_cons, ← ih (List.cons_ne_nil next names), joined,
        String.ofList_append, String.ofList_append, String.utf8ByteSize_append,
        String.utf8ByteSize_append, String.ofList_toList, slash]
      omega

/-- The bytes of a relative path are those of its joined names. -/
theorem utf8ByteSize_text_of_relative {names : List String} (something : names ≠ [])
    (can : ∀ name ∈ names, IsPathName name) :
    (mk .relative names).text.utf8ByteSize + 1 =
      (names.map fun name => name.utf8ByteSize + 1).sum := by
  obtain ⟨first, others, rfl⟩ := List.exists_cons_of_ne_nil something
  obtain ⟨c, rest, -, joined⟩ := exists_joinNames_eq_cons (can first List.mem_cons_self) others
  rw [← utf8ByteSize_joinNames something, text_eq_ofList]
  · rfl
  · simp [joined]

end Path

namespace FileSystem

variable {fs : FileSystem}

/-- **Names are traced** from a path to another: the system can be asked about all paths that are
come to, and none is that of a link that is pending. -/
inductive Traces (fs : FileSystem) : List Path → Path → List String → Path → Prop where
  /-- Without names one stays. -/
  | done (pending : List Path) (here : Path) : Traces fs pending here [] here
  /-- An empty name and a single dot lead nowhere else. -/
  | stay {pending : List Path} {here reached : Path} {name : String} {rest : List String}
      (stays : name = "" ∨ name = ".") (onward : Traces fs pending here rest reached) :
      Traces fs pending here (name :: rest) reached
  /-- A double dot leads one step up. -/
  | up {pending : List Path} {here reached : Path} {rest : List String}
      (onward : Traces fs pending here.up rest reached) :
      Traces fs pending here (".." :: rest) reached
  /-- Any other name leads to the path with that name, where no link is found. -/
  | down {pending : List Path} {here reached : Path} {name : String} {rest : List String}
      (moves : ¬(name = "" ∨ name = ".")) (deeper : name ≠ "..")
      (asked : (here.child name).IsAskable) (found : fs.linkAt? (here.child name) = none)
      (onward : Traces fs pending (here.child name) rest reached) :
      Traces fs pending here (name :: rest) reached
  /-- A link leads where its target does. -/
  | through {pending : List Path} {here middle reached : Path} {name target : String}
      {rest : List String} (moves : ¬(name = "" ∨ name = ".")) (deeper : name ≠ "..")
      (found : fs.linkAt? (here.child name) = some target) (fresh : here.child name ∉ pending)
      (resolved :
        Traces fs (here.child name :: pending) (here.start target) (namesAlong target) middle)
      (onward : Traces fs pending middle rest reached) : Traces fs pending here (name :: rest) reached

/-- A path is **traced** when its names are, from where it begins. -/
def IsTraced (fs : FileSystem) (path : Path) : Prop :=
  ∃ reached, fs.Traces [] path.base path.names reached

/-! ## Following -/

/-- A name holds no NUL character when the system can be asked about the path that it ends. -/
theorem clean_of_child {here : Path} {name : String}
    (clean : '\x00' ∉ (here.child name).text.toList) : '\x00' ∉ name.toList := by
  rw [Path.mem_text_iff (by decide) (by decide)] at clean
  exact fun null => clean ⟨name, by simp [Path.child], null⟩

/-- The system can be asked about a path at which it finds a link. -/
theorem isAskable_of_linkAt? {path : Path} {target : String}
    (found : fs.linkAt? path = some target) : path.IsAskable := by
  unfold linkAt? at found
  split at found
  next given =>
    obtain ⟨clean, short, -⟩ := find_eq_ok_iff.1 given
    exact ⟨clean, short⟩
  next => cases found

/-- **Following names goes on from where they are traced to.** -/
theorem Traces.follow_append {pending : List Path} {here reached : Path} {names : List String}
    (traces : Traces fs pending here names reached) (rest : List String) :
    fs.follow pending here (names ++ rest) = fs.follow pending reached rest := by
  induction traces generalizing rest with
  | done pending here => rfl
  | stay stays _ ih => rw [List.cons_append, follow.eq_2, if_pos stays, ih]
  | up _ ih => rw [List.cons_append, follow.eq_2, if_neg (by decide), if_pos rfl, ih]
  | down moves deeper asked found _ ih =>
    have clean := clean_of_child asked.clean
    rw [List.cons_append, follow_cons_of_noLink moves deeper clean found, ih]
  | through moves deeper found fresh _ _ ihInner ih =>
    have clean := clean_of_child (isAskable_of_linkAt? found).clean
    have settled := ihInner []
    rw [List.append_nil, follow] at settled
    rw [List.cons_append, follow_cons_of_link moves deeper clean found, if_neg fresh, settled]
    exact ih rest

/-- **A path that is traced resolves** where its names are traced to, unless the system gives up on
that. -/
theorem Traces.resolve_eq {path reached : Path}
    (traces : Traces fs [] path.base path.names reached) :
    fs.resolve path = fs.checked (fs.absolute reached) := by
  have settled := traces.follow_append []
  rw [List.append_nil, follow] at settled
  rw [resolve, settled]

/-- No link is found at a path that is too long. -/
theorem linkAt?_of_long {path : Path} (long : pathLimit ≤ path.text.utf8ByteSize) :
    fs.linkAt? path = none := by
  cases found : fs.linkAt? path with
  | none => rfl
  | some target => exact absurd (isAskable_of_linkAt? found).short (Nat.not_lt.2 long)

/-- **A link under a path that is too long is overlooked**: when one more name makes what a path is
traced to too long, the name is kept as it is, whatever is stored there. -/
theorem Traces.resolve_child_of_long {path reached : Path}
    (traces : Traces fs [] path.base path.names reached) {name : String}
    (moves : ¬(name = "" ∨ name = ".")) (deeper : name ≠ "..") (clean : '\x00' ∉ name.toList)
    (long : pathLimit ≤ (reached.child name).text.utf8ByteSize) :
    fs.resolve (path.child name) = fs.checked (fs.absolute (reached.child name)) := by
  have followed : fs.follow [] (path.child name).base (path.child name).names =
      .settled (reached.child name) := by
    have base : (path.child name).base = path.base := rfl
    rw [base, Path.child, traces.follow_append,
      follow_cons_of_noLink moves deeper clean (linkAt?_of_long long), follow]
  rw [resolve, followed]

/-! ## Standing at a location -/

/-- Names **reach** a location when a walk passes them all. -/
inductive Reaches (fs : FileSystem) : Location → List String → Location → Prop where
  /-- Without names one stays. -/
  | done (here : Location) : Reaches fs here [] here
  /-- The first name is passed, and the others reach on. -/
  | step {here next location : Location} {name : String} {rest : List String}
      (passes : fs.Passes here name next) (onward : Reaches fs next rest location) :
      Reaches fs here (name :: rest) location

namespace Reaches

variable {here location next : Location} {names : List String} {name : String}

/-- Behind names that reach a location a walk goes on. -/
theorem walk_append (reaches : Reaches fs here names location) (follow : Bool) (links : Nat)
    (rest : List String) :
    fs.walk follow links here (names ++ rest) = fs.walk follow links location rest := by
  induction reaches with
  | done here => rfl
  | step passes _ ih => rw [List.cons_append, passes.walk_cons, ih]

/-- One more name that is passed reaches on. -/
theorem concat (reaches : Reaches fs here names location) (passes : fs.Passes location name next) :
    Reaches fs here (names ++ [name]) next := by
  induction reaches with
  | done here => exact .step passes (.done next)
  | step first _ ih => exact .step first (ih passes)

/-- The last name is passed from where the others reach. -/
theorem exists_of_concat (reaches : Reaches fs here (names ++ [name]) location) :
    ∃ middle, Reaches fs here names middle ∧ fs.Passes middle name location := by
  induction names generalizing here with
  | nil =>
    obtain _ | ⟨passes, onward⟩ := reaches
    obtain _ | _ := onward
    exact ⟨here, .done here, passes⟩
  | cons first names ih =>
    obtain _ | ⟨passes, onward⟩ := reaches
    obtain ⟨middle, others, last⟩ := ih onward
    exact ⟨middle, .step passes others, last⟩

/-- Names that reach a location go there when only double dots are given a meaning. -/
theorem extend_eq (reaches : Reaches fs here names location) : here.extend names = location := by
  induction reaches with
  | done here => rfl
  | @step here next _ name rest passes _ ih =>
    rw [← ih, Location.extend, List.foldl_cons]
    cases passes with
    | stay _ stays => rw [if_pos stays]; rfl
    | up => rfl
    | down _ moves deeper => rw [if_neg moves, if_neg deeper]; rfl

end Reaches

/-- A path **stands at** a location when its names reach it and each of them leads somewhere. -/
structure StandsAt (fs : FileSystem) (path : Path) (location : Location) : Prop where
  /-- The names reach the location. -/
  reaches : fs.Reaches (fs.origin path) path.names location
  /-- None of the names stays where it is met. -/
  moves : path.OnlyMoves

namespace StandsAt

variable {here : Path} {location : Location} {name : String}

/-- A path stands at its place. -/
theorem place_eq (stands : fs.StandsAt here location) : fs.place here = location :=
  stands.reaches.extend_eq

/-- A path without names stands where it begins. -/
theorem base (fs : FileSystem) (path : Path) : fs.StandsAt path.base (fs.origin path) where
  reaches := by
    rw [origin_base]
    exact .done _
  moves := path.onlyMoves_base

/-- Where a text begins at a path, it begins at the location at which the path stands. -/
theorem start (stands : fs.StandsAt here location) (text : String) :
    fs.StandsAt (here.start text) (startOf location text) := by
  unfold Path.start startOf
  split
  · exact base fs ⟨.root, []⟩
  · exact stands

/-- One name further a path stands where that name is passed to. -/
theorem child {next : Location} (stands : fs.StandsAt here location)
    (passes : fs.Passes location name next) (moves : ¬(name = "" ∨ name = ".")) :
    fs.StandsAt (here.child name) next :=
  ⟨stands.reaches.concat passes, stands.moves.child moves⟩

/-- One step up a path stands at the parent. -/
theorem up (stands : fs.StandsAt here location) (inside : fs.isDirectoryAt location = true) :
    fs.StandsAt here.up location.dropLast := by
  have moves := stands.moves.up
  rcases here.up_cases with up | ⟨anchored, nothing, up⟩ | ⟨name, other, back, up⟩ <;>
    rw [up] at moves ⊢
  · exact stands.child (.up inside) (by decide)
  · -- The root has no parent.
    obtain rfl : [] = location := by
      rw [← stands.place_eq, place, origin_of_anchored anchored, nothing]
      rfl
    exact stands
  · -- The last name went down from the parent.
    have reaches := stands.reaches
    have further := stands.moves name (back ▸ List.mem_append_right _ List.mem_cons_self)
    rw [back] at reaches
    obtain ⟨middle, others, passes⟩ := reaches.exists_of_concat
    obtain rfl : location.dropLast = middle := by
      cases passes with
      | stay _ stays => exact absurd stays further
      | up => exact absurd rfl other
      | down => rw [List.dropLast_concat]
    exact ⟨others, moves⟩

/-- **Asking about a path finds the link** that is stored where it stands. -/
theorem linkAt?_child (stands : fs.StandsAt here location)
    (asked : (here.child name).IsAskable) {target : String}
    (link : fs.MeetsLink location name target) : fs.linkAt? (here.child name) = some target := by
  have found : fs.find false (here.child name) =
      .ok (.taken (location ++ [name]) (.link target)) := by
    refine find_eq_ok_iff.2 ⟨asked.clean, asked.short, ?_⟩
    have origin : fs.origin (here.child name) = fs.origin here := rfl
    rw [origin, Path.child, stands.reaches.walk_append, walk.eq_2, if_neg (by simp [link.inside]),
      if_neg link.moves, if_neg link.deeper, if_neg (Nat.not_lt.2 link.short), link.stored]
    rfl
  rw [linkAt?, found]

/-- No link is found where a file or a directory is passed to. -/
theorem linkAt?_child_of_passes {next : Location} (stands : fs.StandsAt here location)
    (passes : fs.Passes location name next) (moves : ¬(name = "" ∨ name = "."))
    (deeper : name ≠ "..") : fs.linkAt? (here.child name) = none := by
  have further := (stands.child passes moves).reaches.walk_append false linkLimit []
  rw [List.append_nil, walk] at further
  cases passes with
  | stay _ stays => exact absurd stays moves
  | up => exact absurd rfl deeper
  | @down _ entry inside _ _ short stored noLink =>
    rw [stored] at further
    unfold linkAt?
    split
    next given =>
      have walked := (find_eq_ok_iff.1 given).2.2
      rw [further] at walked
      obtain ⟨-, link⟩ := Landing.taken.inj (Except.ok.inj walked)
      exact absurd link (noLink _)
    next => rfl

end StandsAt

/-! ## Resolving what the system finds -/

/-- **Names are traced where the system comes to**: when a walk along them reaches an entry, the
path that they are traced to stands where they lead, and the walk goes on from there. -/
theorem Traces.exists_leads {pending : List Path} {here reached : Path} {names : List String}
    (traces : Traces fs pending here names reached) {start location : Location} {entry : Entry}
    {links : Nat} {rest : List String} (stands : fs.StandsAt here start)
    (walked : fs.walk true links start (names ++ rest) = .ok (.taken location entry)) :
    ∃ middle count left, fs.StandsAt reached middle ∧ Leads fs start names middle count ∧
      fs.walk true left middle rest = .ok (.taken location entry) := by
  induction traces generalizing start links rest with
  | done pending here => exact ⟨start, 0, links, stands, .done start, walked⟩
  | stay stays _ ih =>
    rcases walk_cons_cases walked with ⟨next, passes, onward⟩ | ⟨_, _, -, link, -⟩
    · have same : next = start := by
        cases passes with
        | stay => rfl
        | up => simp at stays
        | down _ moves => exact absurd stays moves
      subst same
      obtain ⟨middle, count, left, stands', leads, further⟩ := ih stands onward
      exact ⟨middle, count, left, stands', .stay stays leads, further⟩
    · exact absurd stays link.moves
  | up _ ih =>
    rcases walk_cons_cases walked with ⟨next, passes, onward⟩ | ⟨_, _, -, link, -⟩
    · obtain ⟨inside, rfl⟩ : fs.isDirectoryAt start = true ∧ next = start.dropLast := by
        cases passes with
        | stay _ stays => simp at stays
        | up inside => exact ⟨inside, rfl⟩
        | down _ _ deeper => exact absurd rfl deeper
      obtain ⟨middle, count, left, stands', leads, further⟩ := ih (stands.up inside) onward
      exact ⟨middle, count, left, stands', .up leads, further⟩
    · exact absurd rfl link.deeper
  | down moves deeper asked found _ ih =>
    rcases walk_cons_cases walked with ⟨next, passes, onward⟩ | ⟨_, _, -, link, -⟩
    · obtain ⟨middle, count, left, stands', leads, further⟩ :=
        ih (stands.child passes moves) onward
      exact ⟨middle, count, left, stands', passes.leads leads, further⟩
    · rw [stands.linkAt?_child asked link] at found
      cases found
  | through moves deeper found _ _ _ ihInner ih =>
    rcases walk_cons_cases walked with ⟨next, passes, -⟩ | ⟨target, left, -, link, onward⟩
    · rw [stands.linkAt?_child_of_passes passes moves deeper] at found
      cases found
    · have same := stands.linkAt?_child (isAskable_of_linkAt? found) link
      obtain rfl := Option.some.inj (same.symm.trans found)
      -- The target is walked first, then the names behind the link.
      obtain ⟨behind, inner, left, standsBehind, resolved, onward⟩ :=
        ihInner (stands.start target) onward
      obtain ⟨middle, count, left, stands', leads, further⟩ := ih standsBehind onward
      exact ⟨middle, inner + count + 1, left, stands',
        .through moves deeper link.linkTarget? resolved leads, further⟩

/-- **A path that leads to an entry goes on from where it resolves**: when the first names of it are
traced and resolve, the other names lead on from there. -/
theorem exists_leads_of_resolve {path resolved : Path} {names : List String} {location : Location}
    {entry : Entry} (reached : fs.status (path.descend names) = .ok (location, entry))
    (traced : fs.IsTraced path) (given : fs.resolve path = .ok resolved) :
    ∃ count, Leads fs resolved.names names location count := by
  obtain ⟨traced, traces⟩ := traced
  have walked := (status_eq_ok_iff.1 reached).2.2
  have origin : fs.origin (path.descend names) = fs.origin path := rfl
  rw [origin, Path.descend] at walked
  obtain ⟨middle, -, left, stands, -, further⟩ := traces.exists_leads (StandsAt.base fs path) walked
  rw [traces.resolve_eq] at given
  obtain rfl := eq_of_checked given
  have place : (fs.absolute traced).names = middle := stands.place_eq
  rw [← List.append_nil names] at further
  obtain ⟨last, count, leads, -, done⟩ := exists_leads_of_walk further
  rw [walk] at done
  split at done
  · obtain ⟨rfl, -⟩ := Landing.taken.inj (Except.ok.inj done)
    exact ⟨count, place ▸ leads⟩
  · cases done

/-- **A path that is traced, leads to an entry and resolves** does both at the same location. -/
theorem names_of_resolve {path resolved : Path} {location : Location} {entry : Entry}
    (reached : fs.status path = .ok (location, entry)) (traced : fs.IsTraced path)
    (given : fs.resolve path = .ok resolved) : resolved.names = location := by
  rw [← Path.descend_nil path] at reached
  obtain ⟨count, leads⟩ := exists_leads_of_resolve reached traced given
  cases leads
  rfl

end FileSystem

end FileRoutes
