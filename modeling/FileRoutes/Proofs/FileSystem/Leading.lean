import FileRoutes.Proofs.FileSystem.Walk

/-! # Where names lead

Names **lead** from one location to another (`Leads`) when they are gone along one by one and every
link is replaced by what it stands for. It is decided where they lead and how many links are met
(`Leads.unique`). A walk that reaches an entry goes where the names lead (`exists_leads_of_walk`),
over no more links than the system follows (`exists_leads_of_status`). Links **stay below** a location
(`LinksStayBelow`) when those at it or below it lead nowhere else; names then lead to places below
it as well. -/

namespace FileRoutes.FileSystem

variable {fs : FileSystem}

/-- **Names lead** from a location to another, with this many links on the way. -/
inductive Leads (fs : FileSystem) : Location → List String → Location → Nat → Prop where
  /-- Without names one stays. -/
  | done (here : Location) : Leads fs here [] here 0
  /-- An empty name and a single dot lead nowhere else. -/
  | stay {here location : Location} {name : String} {rest : List String} {count : Nat}
      (stays : name = "" ∨ name = ".") (onward : Leads fs here rest location count) :
      Leads fs here (name :: rest) location count
  /-- A double dot leads to the parent. -/
  | up {here location : Location} {rest : List String} {count : Nat}
      (onward : Leads fs here.dropLast rest location count) :
      Leads fs here (".." :: rest) location count
  /-- Any other name leads to the location with that name, where no link is stored. -/
  | down {here location : Location} {name : String} {rest : List String} {count : Nat}
      (moves : ¬(name = "" ∨ name = ".")) (deeper : name ≠ "..")
      (stored : fs.linkTarget? (here ++ [name]) = none)
      (onward : Leads fs (here ++ [name]) rest location count) :
      Leads fs here (name :: rest) location count
  /-- A link leads where its target does. -/
  | through {here middle location : Location} {name target : String} {rest : List String}
      {inner count : Nat} (moves : ¬(name = "" ∨ name = ".")) (deeper : name ≠ "..")
      (stored : fs.linkTarget? (here ++ [name]) = some target)
      (resolved : Leads fs (startOf here target) (namesAlong target) middle inner)
      (onward : Leads fs middle rest location count) :
      Leads fs here (name :: rest) location (inner + count + 1)

/-- **It is decided where names lead.** -/
theorem Leads.unique {here location other : Location} {names : List String} {count count' : Nat}
    (first : Leads fs here names location count) (second : Leads fs here names other count') :
    location = other ∧ count = count' := by
  induction first generalizing other count' with
  | done here =>
    cases second
    exact ⟨rfl, rfl⟩
  | stay stays _ ih =>
    cases second with
    | stay _ onward => exact ih onward
    | up => simp at stays
    | down moves | through moves => exact absurd stays moves
  | up _ ih =>
    cases second with
    | stay stays => simp at stays
    | up onward => exact ih onward
    | down _ deeper | through _ deeper => exact absurd rfl deeper
  | down moves deeper stored _ ih =>
    cases second with
    | stay stays => exact absurd stays moves
    | up => exact absurd rfl deeper
    | down _ _ _ onward => exact ih onward
    | through _ _ stored' =>
      rw [stored] at stored'
      cases stored'
  | through moves deeper stored _ _ ihInner ih =>
    cases second with
    | stay stays => exact absurd stays moves
    | up => exact absurd rfl deeper
    | down _ _ stored' =>
      rw [stored] at stored'
      cases stored'
    | through _ _ stored' resolved onward =>
      obtain rfl := Option.some.inj (stored.symm.trans stored')
      obtain ⟨rfl, rfl⟩ := ihInner resolved
      obtain ⟨rfl, rfl⟩ := ih onward
      exact ⟨rfl, rfl⟩

/-! ## Walking -/

/-- Names that are passed lead on. -/
theorem Passes.leads {here next location : Location} {name : String} {rest : List String}
    {count : Nat} (passes : fs.Passes here name next)
    (onward : Leads fs next rest location count) : Leads fs here (name :: rest) location count := by
  cases passes with
  | stay _ stays => exact .stay stays onward
  | up => exact .up onward
  | @down _ entry _ moves deeper _ stored noLink =>
    refine .down moves deeper ?_ onward
    rw [linkTarget?, stored]
    cases entry with
    | link target => exact absurd rfl (noLink target)
    | file | directory => rfl

/-- A link that is met has its target. -/
theorem MeetsLink.linkTarget? {here : Location} {name target : String}
    (link : fs.MeetsLink here name target) : fs.linkTarget? (here ++ [name]) = some target := by
  rw [FileSystem.linkTarget?, link.stored]

/-- **A walk goes where names lead**: it comes to where the first names lead, and goes on from there
with the links that are left. -/
theorem exists_leads_of_walk {links : Nat} {here location : Location} {names rest : List String}
    {entry : Entry}
    (reached : fs.walk true links here (names ++ rest) = .ok (.taken location entry)) :
    ∃ middle count, Leads fs here names middle count ∧ count ≤ links ∧
      fs.walk true (links - count) middle rest = .ok (.taken location entry) := by
  induction links using Nat.strongRecOn generalizing here names rest with
  | ind links ihLinks =>
    induction names generalizing here with
    | nil => exact ⟨here, 0, .done here, Nat.zero_le _, reached⟩
    | cons name names ih =>
      rcases walk_cons_cases reached with ⟨next, passes, onward⟩ | ⟨target, left, rfl, link, onward⟩
      · obtain ⟨middle, count, leads, few, onward⟩ := ih onward
        exact ⟨middle, count, passes.leads leads, few, onward⟩
      · -- The target is walked first, then the names behind the link, both with fewer links.
        obtain ⟨behind, inner, resolved, few, onward⟩ := ihLinks left (by omega) onward
        obtain ⟨middle, count, leads, few', onward⟩ := ihLinks (left - inner) (by omega) onward
        refine ⟨middle, inner + count + 1, ?_, by omega, ?_⟩
        · exact .through link.moves link.deeper link.linkTarget? resolved leads
        · have left : left + 1 - (inner + count + 1) = left - inner - count := by omega
          rw [left]
          exact onward

/-- A path that leads to an entry leads there along its names, **with no more links than the system
follows.** -/
theorem exists_leads_of_status {path : Path} {location : Location} {entry : Entry}
    (reached : fs.status path = .ok (location, entry)) {names rest : List String}
    (parts : path.names = names ++ rest) :
    ∃ middle count count', count + count' ≤ linkLimit ∧
      Leads fs (fs.origin path) names middle count ∧ Leads fs middle rest location count' := by
  have walked := (status_eq_ok_iff.1 reached).2.2
  rw [parts] at walked
  obtain ⟨middle, count, leads, few, onward⟩ := exists_leads_of_walk walked
  rw [← List.append_nil rest] at onward
  obtain ⟨last, count', leads', few', done⟩ := exists_leads_of_walk onward
  rw [walk] at done
  split at done
  · obtain ⟨rfl, -⟩ := Landing.taken.inj (Except.ok.inj done)
    exact ⟨middle, count, count', by omega, leads, leads'⟩
  · cases done

/-! ## Staying below a location -/

/-- The links at a location and below it **stay below** it when none of them leads elsewhere. -/
def LinksStayBelow (fs : FileSystem) (base : Location) : Prop :=
  ∀ here name target middle count, base <+: here ++ [name] →
    fs.linkTarget? (here ++ [name]) = some target →
    Leads fs (startOf here target) (namesAlong target) middle count → base <+: middle

/-- **Names without double dots lead from a location below another to one that is below it,** when
the links there stay below it. -/
theorem LinksStayBelow.isPrefix_of_leads {base here location : Location} {names : List String}
    {count : Nat} (stay : LinksStayBelow fs base) (inside : base <+: here)
    (deeper : ".." ∉ names) (leads : Leads fs here names location count) : base <+: location := by
  induction leads with
  | done here => exact inside
  | stay stays _ ih => exact ih inside fun member => deeper (List.mem_cons_of_mem _ member)
  | up => exact absurd List.mem_cons_self deeper
  | down _ _ _ _ ih =>
    exact ih (inside.trans (List.prefix_append _ _))
      fun member => deeper (List.mem_cons_of_mem _ member)
  | @through here _ _ name _ _ _ _ _ _ stored resolved _ _ ih =>
    have met : base <+: here ++ [name] := inside.trans (List.prefix_append _ _)
    exact ih (stay _ _ _ _ _ met stored resolved)
      fun member => deeper (List.mem_cons_of_mem _ member)

end FileRoutes.FileSystem
