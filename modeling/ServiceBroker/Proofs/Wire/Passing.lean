import ServiceBroker.Proofs.Wire.Closure

/-!
# Members that are passed on

A schema passes an object on if what it reads of it is written as the same object again, whatever
its members are. A record with such a member passes it on in its place: by itself, and when it
shares its object with fields that have names of their own.
-/
namespace ServiceBroker
namespace Json

variable {α : Type} {members : List (String × α)}

/-- In an object that repeats no name, a member is looked up among those that a test lets through
if it passes the test itself. -/
theorem lookup_filter (h : (members.map Prod.fst).Nodup) (p : String → α → Bool) (n : String) :
    (members.filter fun m => p m.1 m.2).lookup n = (members.lookup n).filter (p n) := by
  induction members with
  | nil => rfl
  | cons m members ih =>
    obtain ⟨hm, hmembers⟩ := List.nodup_cons.1 h
    rw [List.filter_cons, lookup_cons]
    by_cases hn : n = m.1
    · have hlater : members.lookup n = none := lookup_eq_none (hn ▸ hm)
      rw [if_pos hn, Option.filter_some, ← hn]
      split
      · rw [lookup_cons, if_pos hn]
      · rw [ih hmembers, hlater, Option.filter_none]
    · rw [if_neg hn]
      split
      · rw [lookup_cons, if_neg hn, ih hmembers]
      · exact ih hmembers

def isNull : Json → Bool
  | .null => true
  | _ => false

/-- The object without those of some members that are null. -/
def withoutNulls (names : List String) : Json → Json
  | .obj members => .obj (members.filter fun m => !(names.contains m.1 && m.2.isNull))
  | j => j

theorem withoutNulls_nil (j : Json) : j.withoutNulls [] = j := by
  cases j <;> simp [withoutNulls]

theorem isNull_canonical (j : Json) : j.canonical.isNull = j.isNull := by cases j <;> rfl

theorem mapMembers_reverse {β : Type} (f : α → β) (members : List (String × α)) :
    (mapMembers f members).reverse = mapMembers f members.reverse :=
  List.map_reverse.symm

/-- The first member of an object that has the name. -/
def Document.member? (name : String) : Document → Option Document
  | .obj members _ => Wire.memberNamed? name members
  | _ => none

theorem Document.ofJson_injective {j k : Json} (h : Document.ofJson j = Document.ofJson k) :
    j = k := by
  have hj := Document.take_ofJson j (Room.holds_unlimited j.depth)
  have hk := Document.take_ofJson k (Room.holds_unlimited k.depth)
  exact Except.ok.inj (hj.symm.trans (h ▸ hk))

end Json

theorem Object.get?_ofMembers (members : List (String × Json)) (n : String) :
    (ofMembers members).get? n = (members.reverse.lookup n).map Value.ofJson := by
  have hlookup := Json.lookup_collect (Json.mapMembers Value.ofJson members) n
  rwa [Json.mapMembers_reverse, Json.lookup_mapMembers] at hlookup

namespace Wire
open Json

/-! ## Objects that are taken in -/

theorem not_mem_of_foreign {names : List String} {members : List (String × Json)} :
    ∀ n ∈ (foreign names members).map Prod.fst, n ∉ names := by
  intro n hn
  obtain ⟨m, hm, rfl⟩ := List.mem_map.1 hn
  simpa using (List.mem_filter.1 hm).2

theorem lookup_foreign_reverse {names : List String} {members : List (String × Json)} {n : String}
    (h : n ∉ names) : (foreign names members).reverse.lookup n = members.reverse.lookup n := by
  have hreverse : (foreign names members).reverse = foreign names members.reverse :=
    List.filter_reverse.symm
  rw [hreverse, lookup_foreign h]

/-- Fields that are written as they stood in an object, but for some that were null, are joined by
the members that were left of the object: together they are that object again. -/
theorem canonical_rejoined {names nulls : List String} {own members : List (String × Json)}
    (hown : (own.map Prod.fst).Nodup) (hnames : own.map Prod.fst ⊆ names) (hnulls : nulls ⊆ names)
    (honce : Once names members)
    (hlookup : ∀ n ∈ names,
      own.lookup n = (members.lookup n).filter fun j => !(nulls.contains n && j.isNull)) :
    (Json.obj (own ++ membersOf (Object.ofMembers (foreign names members)).toJson)).canonical =
      (Json.obj members).canonical.withoutNulls nulls := by
  let free := Object.ofMembers (foreign names members)
  have hfree : ∀ n, (mapMembers Value.json free.members).lookup n =
      ((foreign names members).reverse.lookup n).map Json.canonical := by
    intro n
    have hget := Object.get?_ofMembers (foreign names members) n
    rw [lookup_mapMembers]
    exact (congrArg (Option.map Value.json) hget).trans (Option.map_map ..)
  have hapart : ∀ n ∈ names, (mapMembers Value.json free.members).lookup n = none := by
    intro n hn
    have hmissing : n ∉ (foreign names members).reverse.map Prod.fst := by
      intro hmem
      rw [List.map_reverse, List.mem_reverse] at hmem
      exact not_mem_of_foreign n hmem hn
    rw [hfree, lookup_eq_none hmissing, Option.map_none]
  have hnodup : ((own ++ mapMembers Value.json free.members).map Prod.fst).Nodup := by
    rw [List.map_append, names_mapMembers, List.nodup_append]
    refine ⟨hown, free.sorted.nodup, ?_⟩
    rintro n hn _ hk rfl
    obtain ⟨⟨_, v⟩, hmem, rfl⟩ := List.mem_map.1 hk
    have hmissing := hapart _ (hnames hn)
    rw [lookup_mapMembers, lookup_of_mem free.sorted.nodup hmem] at hmissing
    exact nomatch hmissing
  rw [canonical_obj, canonical_obj]
  refine congrArg Json.obj ?_
  have hsorted := sorted_collect (mapMembers Json.canonical members)
  refine (sorted_collect _).ext (hsorted.filter _) fun n => ?_
  have hkept := lookup_filter hsorted.nodup (fun n j => !(nulls.contains n && j.isNull)) n
  refine ((lookup_sorted hnodup n).trans ?_).trans hkept.symm
  rw [List.lookup_append]
  by_cases hn : n ∈ names
  · rw [hapart n hn, Option.or_none, hlookup n hn, lookup_sorted_of_count (honce n hn)]
    cases members.lookup n with
    | none => rfl
    | some j =>
      simp only [Option.map_some, Option.filter_some, isNull_canonical]
      split <;> rfl
  · have hnull : n ∉ nulls := fun hmem => hn (hnulls hmem)
    have hmissing := lookup_eq_none fun hmem => hn (hnames hmem)
    rw [hmissing, Option.none_or, hfree, lookup_foreign_reverse hn, lookup_collect,
      mapMembers_reverse, lookup_mapMembers]
    cases members.reverse.lookup n with
    | none => rfl
    | some j => simp [hnull, Option.filter_some]

/-! ## Documents that are taken in whole -/

/-- A document that was read to its end within the room for its nesting. -/
def Whole (room : Room) (d : Document) : Prop :=
  ∃ j, d = Document.ofJson j ∧ room.Holds j.depth

mutual
/-- Whether a document is taken in whole, and nothing of it is skipped. -/
def Schema.takesIn {α : Type} : Schema α → Bool
  | .text | .flag | .any | .dict | .either .. => true
  | .choice _ | .list _ | .record .. => false
  | .shared _ fields _ => fields.takesIn
  | .via _ _ schema => schema.takesIn

def Fields.takesIn {α : Type} : Fields α → Bool
  | .done => true
  | .required _ schema rest | .optional _ schema rest | .defaulted _ schema _ rest =>
    schema.takesIn && rest.takesIn
end

theorem whole_of_take {room : Room} {d : Document} {j : Json} (h : d.take room = .ok j) :
    Whole room d :=
  ⟨j, Document.eq_ofJson_of_take d h⟩

theorem Medium.holds_of_enter {m inner : Medium} {n : Nat} (h : m.enter = .ok inner)
    (hinner : inner.room.Holds n) : m.room.Holds (n + 1) := by
  match m, h with
  | .value, _ => exact Room.holds_unlimited _
  | .text (k + 1), rfl =>
    rintro _ ⟨⟩
    exact Nat.succ_le_succ (hinner k rfl)

theorem whole_of_nullable {α : Type} {decode : Document → Except DecodeError α} {room : Room}
    {d : Document} {o : Option α} (h : nullable decode d = .ok o)
    (hdecode : ∀ a, decode d = .ok a → Whole room d) : Whole room d := by
  unfold nullable at h
  split at h
  · exact ⟨.null, rfl, fun _ _ => Nat.zero_le _⟩
  · exact nomatch h
  · obtain ⟨a, ha, -⟩ := map_eq_ok.1 h
    exact hdecode a ha

/-- Where a member passes only if it is whole, members that pass together are those of a tree. -/
theorem exists_ofMembers_of_visit {room : Room}
    {known : String → Option (Document → Except DecodeError Unit)}
    {other : Document → Except Fault Unit}
    (hknown : ∀ n check d, known n = some check → check d = .ok () → Whole room d)
    (hother : ∀ d, other d = .ok () → Whole room d)
    {members : List (MemberName × Document)} {seen : List String}
    (h : visit known other seen members = .ok ()) :
    ∃ ms, members = Document.ofMembers ms ∧ room.Holds (depthMembers ms) := by
  induction members generalizing seen with
  | nil => exact ⟨[], rfl, fun _ _ => Nat.zero_le _⟩
  | cons m members ih =>
    obtain ⟨_ | n, d⟩ := m
    · cases h
    · simp only [visit, ofReading, ok_bind] at h
      have hd : Whole room d ∧ ∃ seen, visit known other seen members = .ok () := by
        cases hcheck : known n with
        | none =>
          simp only [hcheck] at h
          obtain ⟨_, hpass, h⟩ := bind_eq_ok.1 h
          exact ⟨hother d (ofReading_eq_ok.1 hpass), _, h⟩
        | some check =>
          simp only [hcheck] at h
          split at h
          · cases h
          · obtain ⟨_, hpass, h⟩ := bind_eq_ok.1 h
            exact ⟨hknown n check d hcheck hpass, _, h⟩
      obtain ⟨⟨j, rfl, hj⟩, seen, hlater⟩ := hd
      obtain ⟨ms, rfl, hms⟩ := ih hlater
      exact ⟨(n, j) :: ms, rfl, hj.both hms⟩

mutual
theorem Schema.whole_of_decode {α : Type} : (schema : Schema α) → schema.takesIn →
    ∀ {m : Medium} {d : Document} {a : α}, schema.decode m d = .ok a → Whole m.room d
  | .text, _, _, d, _, h => by
    cases d with
    | str s => exact ⟨.str s, rfl, fun _ _ => Nat.zero_le _⟩
    | _ => exact nomatch h
  | .flag, _, _, d, _, h => by
    cases d with
    | bool b => exact ⟨.bool b, rfl, fun _ _ => Nat.zero_le _⟩
    | _ => exact nomatch h
  | .any, _, _, _, _, h | .either .., _, _, _, _, h => by
    obtain ⟨j, htake, -⟩ := bind_eq_ok.1 h
    exact whole_of_take (ofReading_eq_ok.1 htake)
  | .dict, _, _, d, _, h => by
    cases d with
    | obj members ending =>
      obtain ⟨inner, henter, h⟩ := bind_eq_ok.1 h
      obtain ⟨js, htake, h⟩ := bind_eq_ok.1 h
      obtain ⟨_, hending, -⟩ := bind_eq_ok.1 h
      obtain ⟨rfl, hdepth⟩ :=
        Document.eq_ofMembers_of_takeMembers members (ofReading_eq_ok.1 htake)
      obtain rfl := ObjectEnd.closed_of_takeCheck (ofReading_eq_ok.1 hending)
      exact ⟨.obj js, rfl, Medium.holds_of_enter henter hdepth⟩
    | _ => exact nomatch h
  | .shared name fields rest, hwhole, _, d, _, h => by
    cases d with
    | obj members ending =>
      obtain ⟨inner, henter, h⟩ := bind_eq_ok.1 h
      obtain ⟨_, hvisit, h⟩ := bind_eq_ok.1 h
      obtain ⟨_, hending, -⟩ := bind_eq_ok.1 h
      have hother : ∀ d : Document, (fun _ => ()) <$> d.take inner.room = .ok () →
          Whole inner.room d := by
        intro d hd
        obtain ⟨j, htake, -⟩ := map_eq_ok.1 hd
        exact whole_of_take htake
      obtain ⟨ms, rfl, hdepth⟩ :=
        exists_ofMembers_of_visit (fields.whole_of_check hwhole) hother hvisit
      obtain rfl := ObjectEnd.closed_of_takeCheck (ofReading_eq_ok.1 hending)
      exact ⟨.obj ms, rfl, Medium.holds_of_enter henter hdepth⟩
    | _ => exact nomatch h
  | .via _ _ schema, hwhole, _, _, _, h => by
    obtain ⟨_, h, -⟩ := map_eq_ok.1 h
    exact schema.whole_of_decode hwhole h

theorem Fields.whole_of_check {α : Type} : (fields : Fields α) → fields.takesIn →
    ∀ {m : Medium} (n : String) (check : Document → Except DecodeError Unit) (d : Document),
      fields.check? m n = some check → check d = .ok () → Whole m.room d
  | .done, _, _, _, _, _, h, _ => nomatch h
  | .required name schema rest, hwhole, m, n, check, d, h, hpass
  | .defaulted name schema _ rest, hwhole, m, n, check, d, h, hpass => by
    obtain ⟨hschema, hrest⟩ := Bool.and_eq_true_iff.1 hwhole
    simp only [Fields.check?] at h
    split at h
    · cases h
      obtain ⟨a, hdecode, -⟩ := map_eq_ok.1 hpass
      exact schema.whole_of_decode hschema hdecode
    · exact rest.whole_of_check hrest n check d h hpass
  | .optional name schema rest, hwhole, m, n, check, d, h, hpass => by
    obtain ⟨hschema, hrest⟩ := Bool.and_eq_true_iff.1 hwhole
    simp only [Fields.check?] at h
    split at h
    · cases h
      obtain ⟨o, hdecode, -⟩ := map_eq_ok.1 hpass
      exact whole_of_nullable hdecode fun a => schema.whole_of_decode hschema
    · exact rest.whole_of_check hrest n check d h hpass
end

/-- What is read from a document that is taken in whole is read from a tree by name. -/
theorem Schema.exists_read?_of_decode {α : Type} {schema : Schema α} (hwhole : schema.takesIn)
    {m : Medium} {d : Document} {a : α} (h : schema.decode m d = .ok a) :
    ∃ j, d = Document.ofJson j ∧ schema.read? j = some a := by
  obtain ⟨j, rfl, hroom⟩ := schema.whole_of_decode hwhole h
  exact ⟨j, rfl, (schema.toOption_decode hroom).symm.trans (eq_ok_iff.1 h)⟩

/-! ## Members that are passed on in place -/

/-- What is read from an object is written as that object, but for what is not kept of it. -/
def Schema.Returns {α : Type} (schema : Schema α) (kept : Json → Json) : Prop :=
  ∀ m ms ending a, schema.decode m (.obj ms ending) = .ok a →
    ∃ o, Document.obj ms ending = Document.ofJson (.obj o) ∧
      (schema.encode a).canonical = kept (Json.obj o).canonical

/-- One of the fields has the name and returns what is given for it. -/
@[simp]
def Fields.PassesOn {α : Type} (name : String) (kept : Json → Json) : Fields α → Prop
  | .done => False
  | .required n schema rest | .optional n schema rest =>
    if n = name then schema.Returns kept else rest.PassesOn name kept
  | .defaulted n _ _ rest => n ≠ name ∧ rest.PassesOn name kept

section

variable {β : Type} {n name : String} {kept : Json → Json} {rest : Fields β}

@[simp]
theorem Fields.names_label : (label n rest).names = n :: rest.names := rfl

@[simp]
theorem Fields.names_switch {default : Bool} : (switch n default rest).names = n :: rest.names :=
  rfl

@[simp]
theorem Fields.names_freeForm : (freeForm n rest).names = n :: rest.names := rfl

@[simp]
theorem Fields.passesOn_label :
    (label n rest).PassesOn name kept ↔ n ≠ name ∧ rest.PassesOn name kept := Iff.rfl

@[simp]
theorem Fields.passesOn_switch {default : Bool} :
    (switch n default rest).PassesOn name kept ↔ n ≠ name ∧ rest.PassesOn name kept := Iff.rfl

@[simp]
theorem Fields.passesOn_freeForm :
    (freeForm n rest).PassesOn name kept ↔ n ≠ name ∧ rest.PassesOn name kept := Iff.rfl

end

/-- The member of an object that has the name is returned in its place. -/
@[simp]
def Schema.PassesOn {α : Type} (name : String) (kept : Json → Json) : Schema α → Prop
  | .record _ fields => fields.PassesOn name kept
  | .shared _ fields rest =>
    if name ∈ fields.names then fields.PassesOn name kept else rest.PassesOn name kept
  | .via write read schema => (∀ b, write (read b) = b) ∧ schema.PassesOn name kept
  | _ => False

/-- An object that is given under a name is written under that name again. -/
def Reappears (name : String) (kept : Json → Json) (given : Option Document)
    (written : List (String × Json)) : Prop :=
  ∀ ms ending, given = some (.obj ms ending) →
    ∃ o, Document.obj ms ending = Document.ofJson (.obj o) ∧
      ∃ j, written.lookup name = some j ∧ j.canonical = kept (Json.obj o).canonical

section

variable {name : String} {kept : Json → Json} {given : Option Document}
  {written : List (String × Json)}

theorem Reappears.cons {n : String} (hne : n ≠ name) (j : Json)
    (h : Reappears name kept given written) : Reappears name kept given ((n, j) :: written) := by
  intro ms ending hgiven
  obtain ⟨o, ho, k, hk, hkept⟩ := h ms ending hgiven
  exact ⟨o, ho, k, by rwa [lookup_cons, if_neg hne.symm], hkept⟩

theorem Schema.Returns.reappears {α : Type} {schema : Schema α} (h : schema.Returns kept)
    {m : Medium} {a : α}
    (hread : ∀ ms ending, given = some (.obj ms ending) →
      schema.decode m (.obj ms ending) = .ok a) :
    Reappears name kept given ((name, schema.encode a) :: written) := by
  intro ms ending hgiven
  obtain ⟨o, ho, hkept⟩ := h m ms ending a (hread ms ending hgiven)
  exact ⟨o, ho, schema.encode a, by rw [lookup_cons, if_pos rfl], hkept⟩

theorem Fields.reappears_of_build {α : Type} : (fields : Fields α) → fields.PassesOn name kept →
    ∀ {m : Medium} {members : List (MemberName × Document)} {a : α},
      fields.build m members = .ok a →
        Reappears name kept (memberNamed? name members) (fields.encode a)
  | .done, hpasses, _, _, _, _ => hpasses.elim
  | .required n schema rest, hpasses, m, members, (a, b), h => by
    rw [Fields.build_required] at h
    obtain ⟨hown, hrest⟩ := pair_eq_ok.1 h
    rw [Fields.PassesOn] at hpasses
    split at hpasses
    · next hn =>
      subst hn
      refine hpasses.reappears (m := m) fun ms ending hgiven => ?_
      rwa [hgiven] at hown
    · next hn => exact (rest.reappears_of_build hpasses hrest).cons hn _
  | .optional n schema rest, hpasses, m, members, (o, b), h => by
    rw [Fields.build_optional] at h
    obtain ⟨hown, hrest⟩ := pair_eq_ok.1 h
    rw [Fields.PassesOn] at hpasses
    split at hpasses
    · next hn =>
      subst hn
      intro ms ending hgiven
      rw [hgiven] at hown
      obtain ⟨a, hread, rfl⟩ := map_eq_ok.1 hown
      refine hpasses.reappears (m := m) (fun ms ending heq => ?_) ms ending hgiven
      rw [hgiven] at heq
      cases heq
      exact hread
    · next hn =>
      have hlater := rest.reappears_of_build hpasses hrest
      cases o with
      | none => exact hlater
      | some a => exact hlater.cons hn _
  | .defaulted n schema default rest, hpasses, m, members, (a, b), h => by
    rw [Fields.build_defaulted] at h
    obtain ⟨-, hrest⟩ := pair_eq_ok.1 h
    obtain ⟨hn, hpasses⟩ := hpasses
    have hlater := rest.reappears_of_build hpasses hrest
    rw [Fields.encode]
    split
    · exact hlater
    · exact hlater.cons hn _

/-- The members that are left for a shared object are looked up as in the whole one. -/
theorem memberNamed?_others {names : List String} (h : name ∉ names)
    (members : List (MemberName × Document)) :
    memberNamed? name (others names members) = memberNamed? name members := by
  induction members with
  | nil => rfl
  | cons m members ih =>
    obtain ⟨_ | n, d⟩ := m
    · exact ih
    · simp only [others, List.filter_cons] at ih ⊢
      rw [memberNamed?, ← ih]
      split
      · rw [memberNamed?]
      · next hn =>
        have hne : n ≠ name := by grind
        rw [if_neg hne]

/-- An object that is read as part of a message is written in its place again. -/
theorem Schema.reappears_of_decode {α : Type} : (schema : Schema α) → schema.PassesOn name kept →
    ∀ {m : Medium} {d : Document} {a : α}, schema.decode m d = .ok a →
      Reappears name kept (d.member? name) (membersOf (schema.encode a))
  | .record _ fields, hpasses, m, d, a, h => by
    cases d with
    | obj members ending =>
      obtain ⟨inner, -, h⟩ := bind_eq_ok.1 h
      obtain ⟨_, -, h⟩ := bind_eq_ok.1 h
      obtain ⟨_, -, hbuild⟩ := bind_eq_ok.1 h
      exact fields.reappears_of_build hpasses hbuild
    | _ => exact fun _ _ hgiven => nomatch hgiven
  | .shared _ fields rest, hpasses, m, d, (a, b), h => by
    cases d with
    | obj members ending =>
      obtain ⟨inner, -, h⟩ := bind_eq_ok.1 h
      obtain ⟨_, -, h⟩ := bind_eq_ok.1 h
      obtain ⟨_, -, h⟩ := bind_eq_ok.1 h
      obtain ⟨a, hbuild, h⟩ := bind_eq_ok.1 h
      obtain ⟨js, htake, h⟩ := bind_eq_ok.1 h
      obtain ⟨b, hread, h⟩ := bind_eq_ok.1 h
      cases h
      intro ms ending hgiven
      rw [PassesOn] at hpasses
      split at hpasses
      · obtain ⟨o, ho, j, hj, hkept⟩ := fields.reappears_of_build hpasses hbuild ms ending hgiven
        refine ⟨o, ho, j, ?_, hkept⟩
        rw [Schema.encode, membersOf, List.lookup_append, hj, Option.some_or]
      · next hname =>
        obtain ⟨hothers, -⟩ :=
          Document.eq_ofMembers_of_takeMembers _ (ofReading_eq_ok.1 htake)
        have hleft : (Document.ofJson (.obj js)).member? name = some (.obj ms ending) :=
          calc memberNamed? name (Document.ofMembers js)
            _ = memberNamed? name (others fields.names members) := by rw [hothers]
            _ = memberNamed? name members := memberNamed?_others hname members
            _ = some (.obj ms ending) := hgiven
        obtain ⟨o, ho, j, hj, hkept⟩ := rest.reappears_of_decode hpasses hread ms ending hleft
        have hmissing := lookup_eq_none fun hmem => hname ((fields.names_encode a).subset hmem)
        refine ⟨o, ho, j, ?_, hkept⟩
        rw [Schema.encode, membersOf, List.lookup_append, hmissing, Option.none_or, hj]
    | _ => exact nomatch h
  | .via write read schema, hpasses, m, d, _, h => by
    obtain ⟨b, hread, rfl⟩ := map_eq_ok.1 h
    rw [Schema.encode, hpasses.1]
    exact schema.reappears_of_decode hpasses.2 hread

end

end Wire
end ServiceBroker
