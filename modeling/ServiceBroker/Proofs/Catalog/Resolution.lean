import ServiceBroker.Catalog.Lookup

/-!
# What the ids of a request stand for

Ids may repeat in a catalog. A service id stands for the first service that has it, and a plan id
for the first plan of that service: what other services offer, or later ones with the same id, does
not count. A lookup fails only where there is no such entry, and never instead of the catalog.
-/
namespace ServiceBroker

/-- The entry is the first one of a list that has an id. -/
def FirstWith {α : Type} (id : α → String) (wanted : String) (entries : List α) (a : α) : Prop :=
  ∃ before after, entries = before ++ a :: after ∧ id a = wanted ∧ ∀ b ∈ before, id b ≠ wanted

section

variable {α : Type} {id : α → String} {wanted : String} {entries : List α} {a b : α}

theorem find?_eq_some_iff_firstWith :
    entries.find? (fun e => id e == wanted) = some a ↔ FirstWith id wanted entries a := by
  simp only [List.find?_eq_some_iff_append, FirstWith, beq_iff_eq, Bool.not_eq_true',
    beq_eq_false_iff_ne]
  constructor
  · rintro ⟨ha, before, after, hentries, hbefore⟩
    exact ⟨before, after, hentries, ha, hbefore⟩
  · rintro ⟨before, after, hentries, ha, hbefore⟩
    exact ⟨ha, before, after, hentries, hbefore⟩

theorem find?_eq_none_iff_forall_ne :
    entries.find? (fun e => id e == wanted) = none ↔ ∀ e ∈ entries, id e ≠ wanted := by
  simp only [List.find?_eq_none, beq_iff_eq]

theorem FirstWith.unique (ha : FirstWith id wanted entries a) (hb : FirstWith id wanted entries b) :
    a = b :=
  Option.some.inj
    ((find?_eq_some_iff_firstWith.2 ha).symm.trans (find?_eq_some_iff_firstWith.2 hb))

theorem FirstWith.not_absent (ha : FirstWith id wanted entries a) :
    ¬ ∀ e ∈ entries, id e ≠ wanted := by
  obtain ⟨before, after, rfl, hid, -⟩ := ha
  exact fun h => h a (by simp) hid

end

/-- The plan of a service that an id stands for. -/
def ServiceDefinition.FirstPlan (s : ServiceDefinition) (planId : String) : Plan → Prop :=
  FirstWith Plan.id planId s.plans

namespace Catalog

/-- The service that an id stands for. -/
def FirstService (c : Catalog) (serviceId : String) : ServiceDefinition → Prop :=
  FirstWith ServiceDefinition.id serviceId c.services

/-- What the ids of a request come to. A plan is looked for once its service is found. -/
inductive Resolution (c : Catalog) (serviceId : String) :
    Option String → Except Failure (ServiceDefinition × Option Plan) → Prop
  | noService {planId : Option String} (h : ∀ s ∈ c.services, s.id ≠ serviceId) :
    Resolution c serviceId planId (.error (.serviceDoesNotExist serviceId))
  | service {s : ServiceDefinition} (h : c.FirstService serviceId s) :
    Resolution c serviceId none (.ok (s, none))
  | noPlan {s : ServiceDefinition} {planId : String} (h : c.FirstService serviceId s)
    (hplan : ∀ p ∈ s.plans, p.id ≠ planId) :
    Resolution c serviceId (some planId) (.error (.planDoesNotExist planId))
  | plan {s : ServiceDefinition} {planId : String} {p : Plan} (h : c.FirstService serviceId s)
    (hplan : s.FirstPlan planId p) : Resolution c serviceId (some planId) (.ok (s, some p))

variable {c : Catalog} {serviceId : String} {planId : Option String}

theorem Resolution.unique {x y : Except Failure (ServiceDefinition × Option Plan)}
    (hx : Resolution c serviceId planId x) (hy : Resolution c serviceId planId y) : x = y := by
  cases hx with
  | noService h =>
    cases hy with
    | noService _ => rfl
    | service h' | noPlan h' _ | plan h' _ => exact absurd h h'.not_absent
  | service h =>
    cases hy with
    | noService h' => exact absurd h' h.not_absent
    | service h' => rw [h.unique h']
  | noPlan h hplan =>
    cases hy with
    | noService h' => exact absurd h' h.not_absent
    | noPlan _ _ => rfl
    | plan h' hplan' =>
      obtain rfl := h.unique h'
      exact absurd hplan hplan'.not_absent
  | plan h hplan =>
    cases hy with
    | noService h' => exact absurd h' h.not_absent
    | noPlan h' hplan' =>
      obtain rfl := h.unique h'
      exact absurd hplan' hplan.not_absent
    | plan h' hplan' =>
      obtain rfl := h.unique h'
      rw [hplan.unique hplan']

end Catalog

namespace CatalogService

variable {find : CatalogService} {serviceId : String}

/-- What a catalog fails with is what a lookup in it fails with. -/
theorem resolve_of_error {failure : Failure} (h : find serviceId = .error failure)
    (planId : Option String) : find.resolve serviceId planId = .error failure := by
  rw [resolve, h]
  rfl

theorem resolve_of_none (h : find serviceId = .ok none) (planId : Option String) :
    find.resolve serviceId planId = .error (.serviceDoesNotExist serviceId) := by
  rw [resolve, h]
  rfl

theorem resolve_of_some {s : ServiceDefinition} (h : find serviceId = .ok (some s)) :
    find.resolve serviceId none = .ok (s, none) ∧
      ∀ planId, find.resolve serviceId (some planId) =
        match s.plan? planId with
        | some p => .ok (s, some p)
        | none => .error (.planDoesNotExist planId) := by
  constructor
  · rw [resolve, h]
    rfl
  · intro planId
    rw [resolve, h]
    rfl

open Catalog

theorem resolution_resolve (c : Catalog) (serviceId : String) (planId : Option String) :
    Resolution c serviceId planId ((ofCatalog c).resolve serviceId planId) := by
  cases hservice : c.service? serviceId with
  | none =>
    have hfind : ofCatalog c serviceId = .ok none := congrArg Except.ok hservice
    rw [resolve_of_none hfind]
    exact .noService (find?_eq_none_iff_forall_ne.1 hservice)
  | some s =>
    have hfind : ofCatalog c serviceId = .ok (some s) := congrArg Except.ok hservice
    have hfirst : c.FirstService serviceId s := find?_eq_some_iff_firstWith.1 hservice
    obtain ⟨hbare, hplans⟩ := resolve_of_some hfind
    cases planId with
    | none =>
      rw [hbare]
      exact .service hfirst
    | some planId =>
      rw [hplans]
      split
      · next p hplan => exact .plan hfirst (find?_eq_some_iff_firstWith.1 hplan)
      · next hplan => exact .noPlan hfirst (find?_eq_none_iff_forall_ne.1 hplan)

theorem resolve_eq_iff {c : Catalog} {planId : Option String}
    {x : Except Failure (ServiceDefinition × Option Plan)} :
    (ofCatalog c).resolve serviceId planId = x ↔ Resolution c serviceId planId x := by
  have hresolution := resolution_resolve c serviceId planId
  constructor
  · rintro rfl
    exact hresolution
  · exact hresolution.unique

/-- A lookup finds the first service with the id and, where a plan is asked for, the first plan of
that service with its id. It fails for the service exactly if none has the id, and for the plan
exactly if the service has no such plan, whatever other services have. Where the catalog itself
fails, that is the answer. -/
theorem resolves_to_first (c : Catalog) (serviceId : String) (planId : Option String) :
    let found := (ofCatalog c).resolve serviceId planId
    (∀ s p, found = .ok (s, p) ↔ c.FirstService serviceId s ∧
      (planId = none ∧ p = none ∨
        ∃ id plan, planId = some id ∧ p = some plan ∧ s.FirstPlan id plan)) ∧
    (found = .error (.serviceDoesNotExist serviceId) ↔ ∀ s ∈ c.services, s.id ≠ serviceId) ∧
    (∀ id, found = .error (.planDoesNotExist id) ↔
      planId = some id ∧ ∃ s, c.FirstService serviceId s ∧ ∀ p ∈ s.plans, p.id ≠ id) ∧
    (∀ failure, found = .error failure →
      failure = .serviceDoesNotExist serviceId ∨
        ∃ id, planId = some id ∧ failure = .planDoesNotExist id) ∧
    ∀ (find : CatalogService) (failure : Failure), find serviceId = .error failure →
      find.resolve serviceId planId = .error failure := by
  simp only [resolve_eq_iff]
  refine ⟨?_, ?_, ?_, ?_, fun find failure h => resolve_of_error h planId⟩
  · intro s p
    constructor
    · rintro (_ | h | _ | ⟨h, hplan⟩)
      · exact ⟨h, .inl ⟨rfl, rfl⟩⟩
      · exact ⟨h, .inr ⟨_, _, rfl, rfl, hplan⟩⟩
    · rintro ⟨h, ⟨rfl, rfl⟩ | ⟨id, plan, rfl, rfl, hplan⟩⟩
      · exact .service h
      · exact .plan h hplan
  · constructor
    · rintro (h | _)
      exact h
    · exact .noService
  · intro id
    constructor
    · rintro (_ | _ | ⟨h, hplan⟩)
      exact ⟨rfl, _, h, hplan⟩
    · rintro ⟨rfl, s, h, hplan⟩
      exact .noPlan h hplan
  · rintro failure (_ | _ | _)
    · exact .inl rfl
    · exact .inr ⟨_, rfl, rfl⟩

/-- A plan of a later service with the same id, or of another service, is not found. -/
theorem resolves_to_first_of_same_id :
    let plan (id name : String) : Plan := { (default : Plan) with id, name }
    let service (id : String) (plans : List Plan) : ServiceDefinition :=
      { (default : ServiceDefinition) with id, plans }
    let first := service "s" [plan "p" "old", plan "p" "new"]
    let c : Catalog := ⟨[service "t" [plan "q" ""], first, service "s" [plan "q" ""]]⟩
    (ofCatalog c).resolve "s" (some "p") = .ok (first, some (plan "p" "old")) ∧
      (ofCatalog c).resolve "s" (some "q") = .error (.planDoesNotExist "q") ∧
      (failing (.concurrency "")).resolve "r" (some "q") = .error (.concurrency "") := by
  intro plan service first c
  have hfirst : c.FirstService "s" first :=
    ⟨[service "t" [plan "q" ""]], [service "s" [plan "q" ""]], rfl, rfl, by decide⟩
  have hplan : first.FirstPlan "p" (plan "p" "old") := ⟨[], [plan "p" "new"], rfl, rfl, nofun⟩
  obtain ⟨hfound, -⟩ := resolves_to_first c "s" (some "p")
  obtain ⟨-, -, hnoPlan, -, -⟩ := resolves_to_first c "s" (some "q")
  obtain ⟨-, -, -, -, hheard⟩ := resolves_to_first c "r" (some "q")
  exact ⟨(hfound _ _).2 ⟨hfirst, .inr ⟨_, _, rfl, rfl, hplan⟩⟩,
    (hnoPlan "q").2 ⟨rfl, first, hfirst, by decide⟩, hheard _ _ rfl⟩

end CatalogService
end ServiceBroker
