import FileRoutes.FileSystem.Walk
import Mathlib

/-! # Where walks end and why they fail

Each step of a walk that does not fail passes a name (`Passes`) or meets a link (`MeetsLink`), and
the last one may end at a free place or at a link: the walk **comes to** its landing (`ComesTo`,
`walk_eq_ok_iff`). What is stored where a walk ends, and where it goes on from an entry, follow along
these steps (`ComesTo.entry?_location`, `ComesTo.exists_walk_append`). A path leads to what the walk
along its names reaches (`status_eq_ok_iff`). A walk fails because something is absent or because a
name is too long (`isAbsence_of_walk`), so that a question about a path is answered unless the path
**is too long** (`IsTooLong`, `exists_ask_eq_ok_iff`). -/

namespace FileRoutes

/-- The location at which a landing is. -/
def Landing.location : Landing → Location
  | .taken location _ => location
  | .free location => location

/-- The entry at which a landing is, if it is at one. -/
def Landing.stored? : Landing → Option Entry
  | .taken _ entry => some entry
  | .free _ => none

namespace FileSystem

variable {fs : FileSystem}

/-! ## Single steps -/

/-- A walk **passes** a name from one location to another without meeting a link. -/
inductive Passes (fs : FileSystem) : Location → String → Location → Prop where
  /-- An empty name and a single dot lead nowhere else. -/
  | stay {here : Location} {name : String} (inside : fs.isDirectoryAt here = true)
      (stays : name = "" ∨ name = ".") : Passes fs here name here
  /-- A double dot leads to the parent. -/
  | up {here : Location} (inside : fs.isDirectoryAt here = true) : Passes fs here ".." here.dropLast
  /-- Any other name leads to the file or directory with that name. -/
  | down {here : Location} {name : String} {entry : Entry} (inside : fs.isDirectoryAt here = true)
      (moves : ¬(name = "" ∨ name = ".")) (deeper : name ≠ "..")
      (short : name.utf8ByteSize ≤ nameLimit) (stored : fs.entry? (here ++ [name]) = some entry)
      (noLink : ∀ target, entry ≠ .link target) : Passes fs here name (here ++ [name])

/-- A walk **meets a link** behind a location. -/
structure MeetsLink (fs : FileSystem) (here : Location) (name target : String) : Prop where
  /-- It stands at a directory. -/
  inside : fs.isDirectoryAt here = true
  /-- The name is not one that leads nowhere else. -/
  moves : ¬(name = "" ∨ name = ".")
  /-- It is not a double dot. -/
  deeper : name ≠ ".."
  /-- It is not longer than a name may be. -/
  short : name.utf8ByteSize ≤ nameLimit
  /-- The link is stored under it. -/
  stored : fs.entry? (here ++ [name]) = some (.link target)

/-- Behind a name that is passed a walk goes on. -/
theorem Passes.walk_cons {here next : Location} {name : String} (passes : fs.Passes here name next)
    (follow : Bool) (links : Nat) (rest : List String) :
    fs.walk follow links here (name :: rest) = fs.walk follow links next rest := by
  cases passes with
  | stay inside stays => rw [walk.eq_2, if_neg (by simp [inside]), if_pos stays]
  | up inside => rw [walk.eq_2, if_neg (by simp [inside]), if_neg (by decide), if_pos rfl]
  | @down _ entry inside moves deeper short stored noLink =>
    rw [walk.eq_2, if_neg (by simp [inside]), if_neg moves, if_neg deeper,
      if_neg (Nat.not_lt.2 short), stored]
    cases entry with
    | link target => exact absurd rfl (noLink target)
    | file | directory => rfl

/-- A walk ends at a link that it meets last when it does not follow that one. -/
theorem MeetsLink.walk_singleton {here : Location} {name target : String}
    (link : fs.MeetsLink here name target) (links : Nat) :
    fs.walk false links here [name] = .ok (.taken (here ++ [name]) (.link target)) := by
  rw [walk.eq_2, if_neg (by simp [link.inside]), if_neg link.moves, if_neg link.deeper,
    if_neg (Nat.not_lt.2 link.short), link.stored]
  simp

/-- Behind a link that is followed a walk goes on along what the link stands for. -/
theorem MeetsLink.walk_cons_of_follows {here : Location} {name target : String}
    (link : fs.MeetsLink here name target) {follow : Bool} (links : Nat) {rest : List String}
    (follows : (rest.isEmpty && !follow) = false) :
    fs.walk follow (links + 1) here (name :: rest) =
      fs.walk follow links (startOf here target) (namesAlong target ++ rest) := by
  rw [walk.eq_2, if_neg (by simp [link.inside]), if_neg link.moves, if_neg link.deeper,
    if_neg (Nat.not_lt.2 link.short), link.stored]
  simp only [follows, Bool.false_eq_true, if_false]

/-- A link is not followed when no more links may be. -/
theorem MeetsLink.walk_zero_cons {here : Location} {name target : String}
    (link : fs.MeetsLink here name target) {follow : Bool} {rest : List String}
    (follows : (rest.isEmpty && !follow) = false) :
    fs.walk follow 0 here (name :: rest) = .error .tooManyLinks := by
  rw [walk.eq_2, if_neg (by simp [link.inside]), if_neg link.moves, if_neg link.deeper,
    if_neg (Nat.not_lt.2 link.short), link.stored]
  simp only [follows, Bool.false_eq_true, if_false]

/-- Behind a link that is met a walk that follows all links goes on along what it stands for. -/
theorem MeetsLink.walk_cons {here : Location} {name target : String}
    (link : fs.MeetsLink here name target) (links : Nat) (rest : List String) :
    fs.walk true (links + 1) here (name :: rest) =
      fs.walk true links (startOf here target) (namesAlong target ++ rest) :=
  link.walk_cons_of_follows links (by simp)

/-! ## Walks that end -/

/-- **A walk comes to a landing**: what its steps are when it does not fail. -/
inductive ComesTo (fs : FileSystem) (follow : Bool) :
    Nat → Location → List String → Landing → Prop where
  /-- Without names it ends where it stands. -/
  | done {links : Nat} {here : Location} {entry : Entry} (stored : fs.entry? here = some entry) :
      ComesTo fs follow links here [] (.taken here entry)
  /-- The last name may be free. -/
  | free {links : Nat} {here : Location} {name : String} (inside : fs.isDirectoryAt here = true)
      (moves : ¬(name = "" ∨ name = ".")) (deeper : name ≠ "..")
      (short : name.utf8ByteSize ≤ nameLimit) (missing : fs.entry? (here ++ [name]) = none) :
      ComesTo fs follow links here [name] (.free (here ++ [name]))
  /-- The last name may be that of a link, which is followed on demand. -/
  | stop {links : Nat} {here : Location} {name target : String}
      (link : fs.MeetsLink here name target) (stops : follow = false) :
      ComesTo fs follow links here [name] (.taken (here ++ [name]) (.link target))
  /-- A name is passed. -/
  | pass {links : Nat} {here next : Location} {name : String} {rest : List String}
      {landing : Landing} (passes : fs.Passes here name next)
      (onward : ComesTo fs follow links next rest landing) :
      ComesTo fs follow links here (name :: rest) landing
  /-- A link is met and followed. -/
  | through {links : Nat} {here : Location} {name target : String} {rest : List String}
      {landing : Landing} (link : fs.MeetsLink here name target)
      (follows : (rest.isEmpty && !follow) = false)
      (onward : ComesTo fs follow links (startOf here target) (namesAlong target ++ rest) landing) :
      ComesTo fs follow (links + 1) here (name :: rest) landing

section Ends

variable {follow : Bool} {links : Nat} {here : Location} {names : List String} {landing : Landing}

/-- A walk that does not fail comes to its landing. -/
theorem comesTo_of_walk (reached : fs.walk follow links here names = .ok landing) :
    fs.ComesTo follow links here names landing := by
  fun_induction walk fs follow links here names with
  | case1 links here entry stored =>
    obtain rfl := Except.ok.inj reached
    exact .done stored
  | case4 links here name rest inside stays ih =>
    exact .pass (.stay (by simpa using inside) stays) (ih reached)
  | case5 links here rest inside moves ih => exact .pass (.up (by simpa using inside)) (ih reached)
  | case7 links here name rest inside moves deeper short missing last =>
    obtain rfl := Except.ok.inj reached
    obtain rfl := List.isEmpty_iff.1 last
    exact .free (by simpa using inside) moves deeper (Nat.le_of_not_lt short) missing
  | case9 links here name rest inside moves deeper short target stored ends =>
    obtain rfl := Except.ok.inj reached
    obtain ⟨last, stops⟩ : rest = [] ∧ follow = false := by simpa using ends
    subst last
    exact .stop ⟨by simpa using inside, moves, deeper, Nat.le_of_not_lt short, stored⟩ stops
  | case11 here name rest inside moves deeper short target stored goesOn links ih =>
    refine .through ⟨by simpa using inside, moves, deeper, Nat.le_of_not_lt short, stored⟩ ?_
      (ih reached)
    simpa using goesOn
  | case12 links here name rest inside moves deeper short entry noLink stored ih =>
    exact .pass (.down (by simpa using inside) moves deeper (Nat.le_of_not_lt short) stored noLink)
      (ih reached)
  | case2 | case3 | case6 | case8 | case10 => cases reached

/-- **A walk comes to the landing that it gives,** and to no other. -/
theorem walk_eq_ok_iff :
    fs.walk follow links here names = .ok landing ↔ fs.ComesTo follow links here names landing := by
  refine ⟨comesTo_of_walk, fun comes => ?_⟩
  induction comes with
  | done stored => rw [walk, stored]
  | free inside moves deeper short missing =>
    rw [walk.eq_2, if_neg (by simp [inside]), if_neg moves, if_neg deeper,
      if_neg (Nat.not_lt.2 short), missing]
    rfl
  | stop link stops =>
    subst stops
    exact link.walk_singleton _
  | pass passes _ ih => rw [passes.walk_cons, ih]
  | through link follows _ ih => rw [link.walk_cons_of_follows _ follows, ih]

namespace ComesTo

/-- **A walk ends where its landing says**: what is stored there is the entry of the landing. -/
theorem entry?_location (comes : fs.ComesTo follow links here names landing) :
    fs.entry? landing.location = landing.stored? := by
  induction comes with
  | done stored => exact stored
  | free _ _ _ _ missing => exact missing
  | stop link => exact link.stored
  | pass _ _ ih | through _ _ _ ih => exact ih

/-- **A walk that comes to an entry goes on from there** along further names, with the links that
are left. -/
theorem exists_walk_append (comes : fs.ComesTo true links here names landing)
    (taken : landing.stored? ≠ none) :
    ∃ left, ∀ rest,
      fs.walk true links here (names ++ rest) = fs.walk true left landing.location rest := by
  induction comes with
  | @done links => exact ⟨links, fun rest => rfl⟩
  | free => exact absurd rfl taken
  | stop _ stops => cases stops
  | pass passes _ ih =>
    obtain ⟨left, onward⟩ := ih taken
    exact ⟨left, fun rest => by rw [List.cons_append, passes.walk_cons, onward]⟩
  | through link _ _ ih =>
    obtain ⟨left, onward⟩ := ih taken
    exact ⟨left, fun rest => by rw [List.cons_append, link.walk_cons, ← List.append_assoc, onward]⟩

end ComesTo

/-- A walk that ends at an entry ends where the entry is stored. -/
theorem entry?_of_walk {location : Location} {entry : Entry}
    (reached : fs.walk follow links here names = .ok (.taken location entry)) :
    fs.entry? location = some entry :=
  (walk_eq_ok_iff.1 reached).entry?_location

/-- **A step of a walk** on the way to an entry passes a name or meets a link. -/
theorem walk_cons_cases {location : Location} {name : String} {rest : List String} {entry : Entry}
    (reached : fs.walk true links here (name :: rest) = .ok (.taken location entry)) :
    (∃ next, fs.Passes here name next ∧
      fs.walk true links next rest = .ok (.taken location entry)) ∨
    ∃ target left, links = left + 1 ∧ fs.MeetsLink here name target ∧
      fs.walk true left (startOf here target) (namesAlong target ++ rest) =
        .ok (.taken location entry) := by
  cases walk_eq_ok_iff.1 reached with
  | stop _ stops => cases stops
  | pass passes onward => exact .inl ⟨_, passes, walk_eq_ok_iff.2 onward⟩
  | through link _ onward => exact .inr ⟨_, _, rfl, link, walk_eq_ok_iff.2 onward⟩

end Ends

/-! ## Where a path leads -/

/-- **Where a path leads**: its text is one that the system accepts, and the walk along its names
ends there. -/
theorem find_eq_ok_iff {follow : Bool} {path : Path} {landing : Landing} :
    fs.find follow path = .ok landing ↔
      '\x00' ∉ path.text.toList ∧ path.text.utf8ByteSize < pathLimit ∧
        fs.walk follow linkLimit (fs.origin path) path.names = .ok landing := by
  unfold find
  split
  next null => simp [null]
  next clean =>
    split
    next long => simp [Nat.not_lt.2 long]
    next short =>
      cases fs.walk follow linkLimit (fs.origin path) path.names <;>
        simp [clean, Nat.lt_of_not_le short, Except.mapError]

/-- A path leads to an entry when it is found there, all links followed. -/
theorem status_eq_ok_iff_find {path : Path} {location : Location} {entry : Entry} :
    fs.status path = .ok (location, entry) ↔ fs.find true path = .ok (.taken location entry) := by
  unfold status
  cases fs.find true path with
  | error failure => simp [bind, Except.bind]
  | ok landing =>
    cases landing <;> simp [bind, Except.bind, pure, Except.pure, throw, throwThe,
      MonadExceptOf.throw]

/-- **A path leads to an entry** when its text is one that the system accepts and the walk along its
names ends there. -/
theorem status_eq_ok_iff {path : Path} {location : Location} {entry : Entry} :
    fs.status path = .ok (location, entry) ↔
      '\x00' ∉ path.text.toList ∧ path.text.utf8ByteSize < pathLimit ∧
        fs.walk true linkLimit (fs.origin path) path.names = .ok (.taken location entry) :=
  status_eq_ok_iff_find.trans find_eq_ok_iff

/-- A path that leads to an entry ends where the entry is stored. -/
theorem entry?_of_status {path : Path} {location : Location} {entry : Entry}
    (reached : fs.status path = .ok (location, entry)) : fs.entry? location = some entry :=
  entry?_of_walk (status_eq_ok_iff.1 reached).2.2

/-- What can be listed is a directory. -/
theorem exists_status_of_list {path : Path} {names : List String}
    (listed : fs.list path = .ok names) :
    ∃ location, fs.status path = .ok (location, .directory) ∧
      names = (fs.namesIn location).mergeSort := by
  unfold list at listed
  cases reached : fs.status path with
  | error failure =>
    rw [reached] at listed
    cases listed
  | ok place =>
    obtain ⟨location, entry⟩ := place
    rw [reached] at listed
    cases entry with
    | directory => exact ⟨location, rfl, (Except.ok.inj listed).symm⟩
    | file bytes => cases listed
    | link target => cases listed

/-- A path leads to a directory when one is found there. -/
theorem isDirectory_eq_true_iff {path : Path} :
    fs.isDirectory path = .ok true ↔ ∃ location, fs.status path = .ok (location, .directory) := by
  unfold isDirectory ask
  cases reached : fs.status path with
  | ok place =>
    obtain ⟨location, entry⟩ := place
    simp
  | error failure =>
    cases failure with
    | system cause path => cases absent : cause.isAbsence <;> simp [absent]
    | nulInPath => simp
    | linkLoop => simp

/-! ## Failing -/

/-- **A walk fails** because something is absent or because a name is too long. -/
theorem isAbsence_of_walk {follow : Bool} {links : Nat} {here : Location} {names : List String}
    {cause : SystemError} (failed : fs.walk follow links here names = .error cause)
    (short : cause ≠ .nameTooLong) : cause.isAbsence = true := by
  fun_induction walk fs follow links here names with
  | case2 | case3 | case8 | case10 =>
    obtain rfl := Except.error.inj failed
    rfl
  | case6 => exact absurd (Except.error.inj failed).symm short
  | case4 _ _ _ _ _ _ ih | case5 _ _ _ _ _ ih => exact ih failed
  | case11 _ _ _ _ _ _ _ _ _ _ _ ih | case12 _ _ _ _ _ _ _ _ _ _ _ ih => exact ih failed
  | case1 | case7 | case9 => cases failed

/-- A path **is too long** for the system: its text is, or a name on the walk along it. -/
def IsTooLong (fs : FileSystem) (path : Path) : Prop :=
  fs.status path = .error (.system .nameTooLong path)

/-- A path that leads to an entry is not too long. -/
theorem not_isTooLong_of_status {path : Path} {place : Location × Entry}
    (reached : fs.status path = .ok place) : ¬ fs.IsTooLong path := by
  rw [IsTooLong, reached]
  exact fun equal => by cases equal

/-- How a path can fail to lead to an entry. -/
theorem status_eq_error {path : Path} {failure : Failure}
    (failed : fs.status path = .error failure) :
    '\x00' ∈ path.text.toList ∧ failure = .nulInPath ∨
    '\x00' ∉ path.text.toList ∧ ∃ cause, failure = .system cause path ∧
      (cause.isAbsence = true ∨ cause = .nameTooLong) := by
  unfold status find at failed
  split at failed
  next null => exact .inl ⟨null, (Except.error.inj failed).symm⟩
  next clean =>
    refine .inr ⟨clean, ?_⟩
    split at failed
    next => exact ⟨_, (Except.error.inj failed).symm, .inr rfl⟩
    next =>
      cases walked : fs.walk true linkLimit (fs.origin path) path.names with
      | error cause =>
        rw [walked] at failed
        refine ⟨cause, (Except.error.inj failed).symm, ?_⟩
        by_cases long : cause = .nameTooLong
        · exact .inr long
        · exact .inl (isAbsence_of_walk walked long)
      | ok landing =>
        rw [walked] at failed
        cases landing with
        | taken location entry => cases failed
        | free location => exact ⟨.notFound, (Except.error.inj failed).symm, .inl rfl⟩

/-- **A question is answered** unless its path is too long. -/
theorem exists_ask_eq_ok_iff {question : Entry → Bool} {path : Path} :
    (∃ answer, fs.ask question path = .ok answer) ↔ ¬ fs.IsTooLong path := by
  rw [IsTooLong, ask]
  cases reached : fs.status path with
  | ok place => simp
  | error failure =>
    rcases status_eq_error reached with ⟨-, rfl⟩ | ⟨-, cause, rfl, absent | rfl⟩
    · simp
    · -- What is absent is no failure of the question, and a name that is too long is not absent.
      have short : cause ≠ .nameTooLong := by
        rintro rfl
        exact absurd absent (by decide)
      simp [absent, short]
    · simp [SystemError.isAbsence]

end FileSystem

end FileRoutes
