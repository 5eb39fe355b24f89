import Mathlib.Data.List.Nodup
import ServiceBroker.Json.Basic

/-!
# Members in order

Collecting the members of an object neither loses nor changes one as long as no name repeats, and a
canonical tree is what it denotes itself.
-/
namespace ServiceBroker
namespace Json

variable {α β : Type} {members : List (String × α)}

/-- The value of each member under a function. -/
def mapMembers (f : α → β) (members : List (String × α)) : List (String × β) :=
  members.map fun m => (m.1, f m.2)

@[simp]
theorem mapMembers_cons (f : α → β) (m : String × α) (members : List (String × α)) :
    mapMembers f (m :: members) = (m.1, f m.2) :: mapMembers f members := rfl

@[simp]
theorem names_mapMembers (f : α → β) (members : List (String × α)) :
    (mapMembers f members).map Prod.fst = members.map Prod.fst := by
  simp [mapMembers]

/-! ## Lookup -/

theorem lookup_cons (n name : String) (a : α) (members : List (String × α)) :
    ((name, a) :: members).lookup n = if n = name then some a else members.lookup n := by
  by_cases h : n = name
  · rw [List.lookup_cons, h, beq_self_eq_true, if_pos rfl]
  · rw [List.lookup_cons, beq_false_of_ne h, if_neg h]

theorem lookup_mapMembers (f : α → β) (members : List (String × α)) (n : String) :
    (mapMembers f members).lookup n = (members.lookup n).map f := by
  induction members with
  | nil => rfl
  | cons m members ih =>
    rw [mapMembers_cons, lookup_cons, lookup_cons, ih]
    split <;> rfl

theorem lookup_eq_none {n : String} (h : n ∉ members.map Prod.fst) : members.lookup n = none :=
  List.lookup_eq_none_iff.2 fun m hm => by
    have hmem : m.1 ∈ members.map Prod.fst := List.mem_map_of_mem hm
    grind

theorem mem_of_lookup {n : String} {a : α} (h : members.lookup n = some a) : (n, a) ∈ members := by
  obtain ⟨before, later, rfl, -⟩ := List.lookup_eq_some_iff.1 h
  simp

theorem lookup_of_count {m : String × α} (h : (members.map Prod.fst).count m.1 ≤ 1)
    (hmem : m ∈ members) : members.lookup m.1 = some m.2 := by
  obtain ⟨before, later, rfl⟩ := List.append_of_mem hmem
  rw [List.map_append, List.map_cons, List.count_append, List.count_cons_self] at h
  have hbefore : m.1 ∉ before.map Prod.fst := List.count_eq_zero.1 (by omega)
  rw [List.lookup_append, lookup_eq_none hbefore, lookup_cons]
  simp

theorem lookup_of_mem (h : (members.map Prod.fst).Nodup) {n : String} {a : α}
    (hmem : (n, a) ∈ members) : members.lookup n = some a :=
  lookup_of_count (List.nodup_iff_count_le_one.1 h n) hmem

theorem lookup_insert (name n : String) (a : α) (members : List (String × α)) :
    (insert name a members).lookup n = if n = name then some a else members.lookup n := by
  induction members with
  | nil => rw [insert, lookup_cons]
  | cons m members ih =>
    obtain ⟨k, b⟩ := m
    simp only [insert]
    split
    · rw [lookup_cons]
    · split
      · next hlt =>
        have hne : k ≠ name := by
          rintro rfl
          exact String.lt_irrefl _ hlt
        rw [lookup_cons, lookup_cons, ih]
        grind
      · next h₁ h₂ =>
        have heq : name = k := String.le_antisymm (String.not_lt.1 h₂) (String.not_lt.1 h₁)
        rw [lookup_cons, lookup_cons, heq]
        grind

/-- The last member of a name is the one that is collected. -/
theorem lookup_collect (members : List (String × α)) (n : String) :
    (collect members).lookup n = members.reverse.lookup n := by
  suffices hfold : ∀ sorted : List (String × α),
      (members.foldl (fun sorted m => insert m.1 m.2 sorted) sorted).lookup n =
        (members.reverse.lookup n).or (sorted.lookup n) by
    rw [collect, hfold]
    simp
  induction members with
  | nil => intro sorted; rfl
  | cons m members ih =>
    intro sorted
    rw [List.foldl_cons, ih, lookup_insert, List.reverse_cons, List.lookup_append, lookup_cons,
      Option.or_assoc]
    split <;> rfl

/-- Where a name does not repeat, its last member is its first one. -/
theorem lookup_reverse {n : String} (h : (members.map Prod.fst).count n ≤ 1) :
    members.reverse.lookup n = members.lookup n := by
  induction members with
  | nil => rfl
  | cons m members ih =>
    rw [List.map_cons, List.count_cons] at h
    rw [List.reverse_cons, List.lookup_append, lookup_cons, lookup_cons, ih (by omega)]
    by_cases heq : n = m.1
    · have hlater : n ∉ members.map Prod.fst := by
        rw [← List.count_eq_zero]
        grind
      simp [heq ▸ lookup_eq_none hlater, heq]
    · simp [heq]

/-! ## Collecting -/

theorem Sorted.nodup (h : Sorted members) : (members.map Prod.fst).Nodup := by
  refine List.pairwise_map.2 (List.Pairwise.imp ?_ h)
  intro x y hlt heq
  exact String.lt_irrefl _ (heq ▸ hlt)

/-- Members that do not repeat a name are determined, up to their order, by lookup. -/
theorem perm_of_lookup {others : List (String × α)} (h : (members.map Prod.fst).Nodup)
    (hothers : (others.map Prod.fst).Nodup) (hlookup : ∀ n, members.lookup n = others.lookup n) :
    members.Perm others := by
  refine (List.perm_ext_iff_of_nodup h.of_map hothers.of_map).2 fun m => ?_
  constructor <;> intro hm
  · exact mem_of_lookup ((hlookup m.1).symm.trans (lookup_of_mem h hm))
  · exact mem_of_lookup ((hlookup m.1).trans (lookup_of_mem hothers hm))

/-- And they are looked up alike in whatever order they stand. -/
theorem lookup_of_perm {others : List (String × α)} (h : members.Perm others)
    (hothers : (others.map Prod.fst).Nodup) (n : String) : members.lookup n = others.lookup n := by
  have hnames := h.map Prod.fst
  cases hn : others.lookup n with
  | some a => exact lookup_of_mem (hnames.nodup_iff.2 hothers) (h.mem_iff.2 (mem_of_lookup hn))
  | none =>
    refine lookup_eq_none fun hmem => ?_
    obtain ⟨m, hm, rfl⟩ := List.mem_map.1 (hnames.mem_iff.1 hmem)
    exact nomatch hn.symm.trans (lookup_of_mem hothers hm)

theorem Sorted.ext {others : List (String × α)} (h : Sorted members) (hothers : Sorted others)
    (hlookup : ∀ n, members.lookup n = others.lookup n) : members = others := by
  refine (perm_of_lookup h.nodup hothers.nodup hlookup).eq_of_pairwise ?_ h hothers
  intro x y _ _ hlt hgt
  exact absurd hgt (String.lt_asymm hlt)

/-- Members of different names may change places. -/
theorem collect_swap {m n : String × α} (h : m.1 ≠ n.1) (before after : List (String × α)) :
    collect (before ++ m :: n :: after) = collect (before ++ n :: m :: after) := by
  refine (sorted_collect _).ext (sorted_collect _) fun k => ?_
  simp only [lookup_collect, List.reverse_append, List.reverse_cons, List.append_assoc,
    List.cons_append, List.nil_append, List.lookup_append]
  grind

/-- Where no name repeats, every member is collected. -/
theorem collect_perm (h : (members.map Prod.fst).Nodup) : (collect members).Perm members :=
  perm_of_lookup (sorted_collect members).nodup h fun n => by
    rw [lookup_collect, lookup_reverse (List.nodup_iff_count_le_one.1 h n)]

theorem insert_eq_cons {name : String} (h : ∀ m ∈ members, name < m.1) (a : α) :
    insert name a members = (name, a) :: members := by
  cases members with
  | nil => rfl
  | cons m members =>
    have hm : name < m.1 := h m (List.mem_cons_self ..)
    simp only [insert, hm, if_true]

theorem insert_eq_append {name : String} (h : ∀ m ∈ members, m.1 < name) (a : α) :
    insert name a members = members ++ [(name, a)] := by
  induction members with
  | nil => rfl
  | cons m members ih =>
    obtain ⟨hm, hmembers⟩ := List.forall_mem_cons.1 h
    have hasymm : ¬ name < m.1 := String.lt_asymm hm
    simp only [insert, hasymm, hm, if_true, if_false, ih hmembers, List.cons_append]

theorem collect_of_sorted (h : Sorted members) : collect members = members := by
  suffices hfold : ∀ before : List (String × α), Sorted (before ++ members) →
      members.foldl (fun sorted m => insert m.1 m.2 sorted) before = before ++ members from
    hfold [] h
  clear h
  induction members with
  | nil => simp
  | cons m members ih =>
    intro before h
    have hm : ∀ b ∈ before, b.1 < m.1 := fun b hb =>
      (List.pairwise_append.1 h).2.2 b hb m (List.mem_cons_self ..)
    rw [List.foldl_cons, insert_eq_append hm, ih _ (by simpa using h)]
    simp

theorem insert_mapMembers (f : α → β) (name : String) (a : α) (members : List (String × α)) :
    insert name (f a) (mapMembers f members) = mapMembers f (insert name a members) := by
  induction members with
  | nil => rfl
  | cons m members ih =>
    simp only [mapMembers_cons, insert, ih]
    split
    · rfl
    · split <;> rfl

theorem collect_mapMembers (f : α → β) (members : List (String × α)) :
    collect (mapMembers f members) = mapMembers f (collect members) := by
  suffices hfold : ∀ sorted : List (String × α),
      (mapMembers f members).foldl (fun sorted m => insert m.1 m.2 sorted) (mapMembers f sorted) =
        mapMembers f (members.foldl (fun sorted m => insert m.1 m.2 sorted) sorted) from hfold []
  induction members with
  | nil => intro sorted; rfl
  | cons m members ih =>
    intro sorted
    simp only [mapMembers_cons, List.foldl_cons, insert_mapMembers, ih]

/-- The members whose names a test lets through. -/
def filterNames (p : String → Bool) (members : List (String × α)) : List (String × α) :=
  members.filter fun m => p m.1

@[simp]
theorem filterNames_cons (p : String → Bool) (m : String × α) (members : List (String × α)) :
    filterNames p (m :: members) =
      if p m.1 then m :: filterNames p members else filterNames p members :=
  List.filter_cons

theorem filterNames_insert (p : String → Bool) (h : Sorted members) (name : String) (a : α) :
    filterNames p (insert name a members) =
      if p name then insert name a (filterNames p members) else filterNames p members := by
  induction members with
  | nil => simp only [insert, filterNames_cons]; rfl
  | cons m members ih =>
    obtain ⟨k, b⟩ := m
    obtain ⟨hk, hmembers⟩ := List.pairwise_cons.1 h
    simp only [insert]
    split
    · next hlt =>
      have hall : ∀ x ∈ filterNames p ((k, b) :: members), name < x.1 := by
        intro x hx
        rcases List.mem_cons.1 (List.mem_filter.1 hx).1 with rfl | hx
        · exact hlt
        · exact String.lt_trans hlt (hk x hx)
      rw [insert_eq_cons hall, filterNames_cons]
    · next hnlt =>
      split
      · next hlt =>
        rw [filterNames_cons, ih hmembers, filterNames_cons]
        by_cases hpk : p k = true
        · simp only [hpk, if_true, insert, hnlt, hlt, if_false]
          split <;> rfl
        · simp only [hpk]
          rfl
      · next hngt =>
        have heq : name = k := String.le_antisymm (String.not_lt.1 hngt) (String.not_lt.1 hnlt)
        subst heq
        rw [filterNames_cons, filterNames_cons]
        by_cases hp : p name = true
        · simp only [hp, if_true, insert, hnlt, if_false]
        · simp only [hp]
          rfl

theorem filterNames_collect (p : String → Bool) (members : List (String × α)) :
    filterNames p (collect members) = collect (filterNames p members) := by
  suffices hfold : ∀ sorted : List (String × α), Sorted sorted →
      filterNames p (members.foldl (fun sorted m => insert m.1 m.2 sorted) sorted) =
        (filterNames p members).foldl (fun sorted m => insert m.1 m.2 sorted)
          (filterNames p sorted) from hfold [] List.Pairwise.nil
  induction members with
  | nil => intro sorted _; rfl
  | cons m members ih =>
    intro sorted h
    rw [List.foldl_cons, ih _ (sorted_insert m.1 m.2 h), filterNames_insert p h, filterNames_cons]
    split <;> rfl

theorem filterNames_mapMembers (p : String → Bool) (f : α → β) (members : List (String × α)) :
    filterNames p (mapMembers f members) = mapMembers f (filterNames p members) := by
  induction members with
  | nil => rfl
  | cons m members ih =>
    rw [mapMembers_cons, filterNames_cons, filterNames_cons, ih]
    split <;> rfl

theorem lookup_filterNames (p : String → Bool) {n : String} (h : p n = true) :
    (filterNames p members).lookup n = members.lookup n := by
  induction members with
  | nil => rfl
  | cons m members ih =>
    rw [filterNames_cons, lookup_cons]
    split
    · rw [lookup_cons, ih]
    · next hm =>
      have hne : n ≠ m.1 := by
        rintro rfl
        exact hm h
      rw [if_neg hne, ih]

theorem sorted_filterNames (p : String → Bool) (h : Sorted members) :
    Sorted (filterNames p members) :=
  List.Pairwise.filter _ h

/-! ## Canonical trees -/

theorem canonicalItems_eq_map (items : List Json) : canonicalItems items = items.map canonical := by
  induction items with
  | nil => rfl
  | cons j items ih => rw [canonicalItems, ih, List.map_cons]

theorem canonicalMembers_eq_map (members : List (String × Json)) :
    canonicalMembers members = mapMembers canonical members := by
  induction members with
  | nil => rfl
  | cons m members ih => rw [canonicalMembers, ih, mapMembers_cons]

mutual
theorem canonical_eq_self : {j : Json} → j.Canonical → j.canonical = j
  | .arr _, h => congrArg Json.arr (canonicalItems_eq_self h)
  | .obj members, h => by
    rw [canonical, canonicalMembers_eq_self h.2, collect_of_sorted h.1]
  | .null, _ | .bool _, _ | .num _, _ | .str _, _ => rfl

theorem canonicalItems_eq_self : {js : List Json} → CanonicalItems js → canonicalItems js = js
  | [], _ => rfl
  | _ :: _, h => by rw [canonicalItems, canonical_eq_self h.1, canonicalItems_eq_self h.2]

theorem canonicalMembers_eq_self :
    {ms : List (String × Json)} → CanonicalMembers ms → canonicalMembers ms = ms
  | [], _ => rfl
  | _ :: _, h => by rw [canonicalMembers, canonical_eq_self h.1, canonicalMembers_eq_self h.2]
end

@[simp]
theorem canonical_idem (j : Json) : j.canonical.canonical = j.canonical :=
  canonical_eq_self j.canonical_canonical

theorem canonical_ne_null {j : Json} (h : j ≠ .null) : j.canonical ≠ .null := by
  cases j <;> grind [Json.canonical]

theorem canonical_obj (members : List (String × Json)) :
    (Json.obj members).canonical = .obj (collect (mapMembers canonical members)) := by
  rw [canonical, canonicalMembers_eq_map]

/-- Sorting members leaves what a name that does not repeat is looked up by. -/
theorem lookup_sorted_of_count {members : List (String × Json)} {n : String}
    (h : (members.map Prod.fst).count n ≤ 1) :
    (collect (mapMembers canonical members)).lookup n = (members.lookup n).map canonical := by
  rw [lookup_collect, lookup_reverse (by rwa [names_mapMembers]), lookup_mapMembers]

theorem lookup_sorted {members : List (String × Json)} (h : (members.map Prod.fst).Nodup)
    (n : String) : (collect (mapMembers canonical members)).lookup n =
      (members.lookup n).map canonical :=
  lookup_sorted_of_count (List.nodup_iff_count_le_one.1 h n)

theorem canonical_of_lookup {members : List (String × Json)} (h : (Json.obj members).Canonical)
    {n : String} {j : Json} (hj : members.lookup n = some j) : j.canonical = j :=
  canonical_eq_self (canonicalMembers_iff.1 h.2 _ (mem_of_lookup hj))

theorem Canonical.filterNames {members : List (String × Json)} (h : (Json.obj members).Canonical)
    (p : String → Bool) : (Json.obj (filterNames p members)).Canonical :=
  ⟨sorted_filterNames p h.1, canonicalMembers_iff.2 fun m hm =>
    canonicalMembers_iff.1 h.2 m (List.mem_of_mem_filter hm)⟩

/-- The member of an object by its name. -/
def member? (name : String) : Json → Option Json
  | .obj members => members.lookup name
  | _ => none

theorem member?_canonical {members : List (String × Json)} (h : (members.map Prod.fst).Nodup)
    (n : String) : (Json.obj members).canonical.member? n = (members.lookup n).map canonical := by
  rw [canonical_obj]
  exact lookup_sorted h n

end Json

/-! ## Values and free-form maps -/

theorem Value.ofJson_json (v : Value) : ofJson v.json = v :=
  ext (Json.canonical_eq_self v.canonical)

theorem Value.ofJson_canonical (j : Json) : ofJson j.canonical = ofJson j :=
  ext (Json.canonical_idem j)

namespace Value
open Json

variable {v : Value} {members : List (String × Json)}

theorem sorted_of_obj (h : v.json = .obj members) : Sorted members := by
  have hcanonical := v.canonical
  rw [h] at hcanonical
  exact hcanonical.1

theorem canonical_obj_of_obj (h : v.json = .obj members) :
    (Json.obj members).canonical = .obj members :=
  canonical_eq_self (h ▸ v.canonical)

theorem canonical_of_member? {n : String} {j : Json} (h : v.json.member? n = some j) :
    j.canonical = j := by
  have hcanonical := v.canonical
  cases hv : v.json with
  | obj members =>
    rw [hv] at h hcanonical
    exact canonical_of_lookup hcanonical h
  | _ =>
    rw [hv] at h
    exact nomatch h

end Value

namespace Object
open Json

/-- The members of a map are the members it is made of again. -/
theorem ofMembers_json (o : Object) : ofMembers (mapMembers Value.json o.members) = o := by
  refine ext ?_
  have hvalues : ∀ m ∈ o.members, (m.1, Value.ofJson m.2.json) = m := by
    intro m _
    rw [Value.ofJson_json]
  simp only [ofMembers, mapMembers, List.map_map, Function.comp_def]
  rw [List.map_congr_left hvalues, List.map_id', collect_of_sorted o.sorted]

theorem ofMembers_sorted (members : List (String × Json)) :
    ofMembers (collect (mapMembers canonical members)) = ofMembers members := by
  refine ext ?_
  have hcanonical : mapMembers Value.ofJson (mapMembers canonical members) =
      mapMembers Value.ofJson members := by
    simp only [mapMembers, List.map_map, Function.comp_def, Value.ofJson_canonical]
  calc collect (mapMembers Value.ofJson (collect (mapMembers canonical members)))
    _ = mapMembers Value.ofJson (collect (mapMembers canonical members)) := by
      rw [collect_mapMembers, collect_of_sorted (sorted_collect _)]
    _ = collect (mapMembers Value.ofJson (mapMembers canonical members)) :=
      (collect_mapMembers ..).symm
    _ = collect (mapMembers Value.ofJson members) := by rw [hcanonical]

end Object
end ServiceBroker
