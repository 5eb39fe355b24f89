import ServiceBroker.Proofs.Wire.Columns
import ServiceBroker.Proofs.Wire.Encoding

/-!
# Layouts

A layout says of a record that shares its object with a part of another type what reading makes of a
tree: the record that its members stand for, or else the one problem that is reported. Only members
with the names of the layout matter.
-/
namespace ServiceBroker.Wire
open Json

/-- A record is in a table with its fields. -/
inductive Schema.Lists {P : Type} (columns : List (Column P)) : Schema P → Prop
  | record {α : Type} {name : String} {fields : Fields α} {write : P → α} {read : α → P}
    (h : fields.Lists write columns) (hwrite : ∀ a, write (read a) = a)
    (hread : ∀ p, read (write p) = p) : Lists columns (.via write read (.record name fields))

/-- A record that shares its object with a part of another type: the tables of both, and what is
left of the record when the fields that are never read are reset. -/
structure Layout (R P : Type) where
  name : String
  own : List (Column R)
  later : List (Column P)
  part : R → P
  erase : R → R

namespace Layout

variable {R P : Type}

/-- The names that matter. -/
def names (layout : Layout R P) : List String :=
  layout.own.map (·.name) ++ layout.later.map (·.name)

/-- What is reported of an object. -/
def Reports (layout : Layout R P) : Json → DecodeError → Prop :=
  Reported (layout.own.map (·.toMember)) (layout.later.map (·.toMember))

/-- What reading makes of a tree: a record that holds what its members stand for, or else the one
problem that is reported. -/
inductive Outcome (layout : Layout R P) (j : Json) : Except DecodeError R → Prop
  | noObject (h : ∀ ms, j ≠ .obj ms) :
    Outcome layout j (.error (unexpected (.ofJson j) (.record layout.name)))
  | rejected {ms : List (String × Json)} {e : DecodeError} (hobject : j = .obj ms)
    (h : layout.Reports j e) : Outcome layout j (.error e)
  | accepted {ms : List (String × Json)} {r : R} (hobject : j = .obj ms)
    (hown : ∀ c ∈ layout.own, c.Holds (j.member? c.name) r)
    (hlater : ∀ c ∈ layout.later, c.Holds (j.member? c.name) (layout.part r))
    (hunread : layout.erase r = r) : Outcome layout j (.ok r)

/-- The schema reads a record as it is laid out. -/
inductive Fits (layout : Layout R P) : Schema R → Prop
  | shared {α : Type} {fields : Fields α} {rest : Schema P} {write : R → α × P} {read : α × P → R}
    (hown : fields.Lists (fun r => (write r).1) layout.own) (hlater : rest.Lists layout.later)
    (hpart : ∀ r, (write r).2 = layout.part r) (hwrite : ∀ x, write (read x) = x)
    (hread : ∀ r, read (write r) = layout.erase r) :
    Fits layout (.via write read (.shared layout.name fields rest))

/-- An object is rejected for what is reported of it. -/
theorem Outcome.reported {layout : Layout R P} {ms : List (String × Json)} {e : DecodeError}
    (h : layout.Outcome (.obj ms) (.error e)) : layout.Reports (.obj ms) e := by
  cases h with
  | noObject hobject => exact absurd rfl (hobject ms)
  | rejected _ hreported => exact hreported

/-- Objects that agree on the names that matter are read alike. -/
theorem Outcome.congr {layout : Layout R P} {ms ns : List (String × Json)}
    (h : ∀ n ∈ layout.names, (Json.obj ms).member? n = (Json.obj ns).member? n)
    {x : Except DecodeError R} (hx : layout.Outcome (.obj ms) x) : layout.Outcome (.obj ns) x := by
  obtain ⟨hown, hlater⟩ := List.forall_mem_append.1 h
  have hown := List.forall_mem_map.1 hown
  have hlater := List.forall_mem_map.1 hlater
  cases hx with
  | noObject hobject => exact absurd rfl (hobject ms)
  | rejected _ hreported =>
    refine .rejected rfl ((reported_congr ?_ ?_).1 hreported)
    · exact List.forall_mem_map.2 hown
    · exact List.forall_mem_map.2 hlater
  | accepted _ hownHolds hlaterHolds hunread =>
    refine .accepted rfl (fun c hc => ?_) (fun c hc => ?_) hunread
    · exact hown c hc ▸ hownHolds c hc
    · exact hlater c hc ▸ hlaterHolds c hc

end Layout

/-! ## Objects that are shared -/

/-- What becomes of a member that is left to the record that shares the object. -/
def leave (d : Document) : Except Fault Unit := (fun _ => ()) <$> d.take Medium.value.room

theorem leave_ofJson (j : Json) : leave (Document.ofJson j) = .ok () := by
  have htake := Document.take_ofJson j (Room.holds_unlimited _)
  simp only [leave, Medium.room, htake]
  rfl

theorem Schema.error?_record {α : Type} {name : String} {fields : Fields α}
    {ms : List (String × Json)} :
    error? ((record name fields).decode .value (Document.ofJson (.obj ms))) =
      error? (fields.take Document.skip ms) := rfl

/-- The record that shares an object is read behind the fields. -/
theorem Schema.error?_shared {α β : Type} {name : String} {fields : Fields α} {rest : Schema β}
    {ms : List (String × Json)} :
    error? ((shared name fields rest).decode .value (Document.ofJson (.obj ms))) =
      (error? (fields.take leave ms)).or
        (error? (rest.decode .value (Document.ofJson (.obj (foreign fields.names ms))))) := by
  have htake := Document.takeMembers_ofMembers (foreign fields.names ms) (Room.holds_unlimited _)
  have hdecode : (shared name fields rest).decode .value (Document.ofJson (.obj ms)) = (do
      let a ← fields.take leave ms
      let b ← rest.decode .value (Document.ofJson (.obj (foreign fields.names ms)))
      return (a, b)) := by
    simp only [decode, Document.ofJson, Medium.enter, Medium.room, ok_bind, others_ofMembers, htake,
      ofReading, Fields.take, bind_assoc]
    rfl
  rw [hdecode, error?_pair]

namespace Schema.Lists

variable {P : Type} {columns : List (Column P)} {schema : Schema P} {ms : List (String × Json)}

theorem names?_eq (h : schema.Lists columns) : schema.names? = some (columns.map (·.name)) := by
  obtain ⟨hfields, -, -⟩ := h
  rw [hfields.map_name]
  rfl

theorem error?_iff (h : schema.Lists columns) (hform : schema.wellFormed)
    (hcanonical : (Json.obj ms).Canonical) {e : DecodeError} :
    error? (schema.decode .value (Document.ofJson (.obj ms))) = some e ↔
      Flawed (columns.map (·.toMember)) (.obj ms) e := by
  obtain @⟨_, _, fields, _, _, hfields, -, -⟩ := h
  rw [decode, error?_map, error?_record]
  exact hfields.error?_take_iff (fields.nodup_names hform) hcanonical
    fun m _ => Document.skip_ofJson m.2

theorem read?_iff (h : schema.Lists columns) (hcanonical : (Json.obj ms).Canonical) {p : P} :
    schema.read? (.obj ms) = some p ↔ ∀ c ∈ columns, c.Holds (ms.lookup c.name) p := by
  obtain @⟨_, _, fields, _, _, hfields, hwrite, hread⟩ := h
  have honce : Once fields.names ms := .of_nodup hcanonical.1.nodup _
  rw [read?_via_iff hwrite, and_iff_left (hread p), read?, if_pos honce,
    hfields.fill?_eq_some_iff hcanonical]

end Schema.Lists

namespace Layout.Fits

variable {R P : Type} {layout : Layout R P} {schema : Schema R} {ms : List (String × Json)}

/-- The record that shares an object finds there what it looks for. -/
theorem lookup_later {α : Type} {name : String} {fields : Fields α} {rest : Schema P}
    (hform : (Schema.shared name fields rest).wellFormed) (hlater : rest.Lists layout.later) :
    ∀ c ∈ layout.later, (foreign fields.names ms).lookup c.name = ms.lookup c.name := by
  obtain ⟨-, -, -, hdisjoint⟩ := Schema.wellFormed_shared.1 hform
  rw [hlater.names?_eq] at hdisjoint
  exact fun c hc => lookup_foreign (hdisjoint c.name (List.mem_map_of_mem hc))

theorem error?_iff (h : layout.Fits schema) (hform : schema.wellFormed)
    (hcanonical : (Json.obj ms).Canonical) {e : DecodeError} :
    error? (schema.decode .value (Document.ofJson (.obj ms))) = some e ↔
      layout.Reports (.obj ms) e := by
  obtain @⟨_, fields, rest, _, _, hown, hlater, -, -, -⟩ := h
  obtain ⟨hfields, hrest, -, -⟩ := Schema.wellFormed_shared.1 hform
  have hrestFlawed :
      error? (rest.decode .value (Document.ofJson (.obj (foreign fields.names ms)))) = some e ↔
        Flawed (layout.later.map (·.toMember)) (.obj ms) e := by
    refine (hlater.error?_iff hrest (hcanonical.filterNames _)).trans (flawed_congr ?_)
    exact List.forall_mem_map.2 (lookup_later hform hlater)
  have htaken := fun e => hown.error?_take_iff (fields.nodup_names hfields) hcanonical
    (fun m _ => leave_ofJson m.2) (e := e)
  rw [Schema.decode, error?_map, Schema.error?_shared, Option.or_eq_some_iff,
    Option.eq_none_iff_forall_ne_some, Reports, reported_iff, hrestFlawed, htaken]
  simp only [ne_eq, htaken]

theorem read?_iff (h : layout.Fits schema) (hform : schema.wellFormed)
    (hcanonical : (Json.obj ms).Canonical) {r : R} :
    schema.read? (.obj ms) = some r ↔
      (∀ c ∈ layout.own, c.Holds (ms.lookup c.name) r) ∧
      (∀ c ∈ layout.later, c.Holds (ms.lookup c.name) (layout.part r)) ∧ layout.erase r = r := by
  obtain @⟨_, fields, rest, write, _, hown, hlater, hpart, hwrite, hread⟩ := h
  have honce : Once fields.names ms := .of_nodup hcanonical.1.nodup _
  have hforeign : (Json.obj (foreign fields.names ms)).Canonical := hcanonical.filterNames _
  have hrest : rest.read? (.obj (foreign fields.names ms)) = some (layout.part r) ↔
      ∀ c ∈ layout.later, c.Holds (ms.lookup c.name) (layout.part r) := by
    refine (hlater.read?_iff hforeign).trans (forall₂_congr fun c hc => ?_)
    rw [lookup_later hform hlater c hc]
  have hpair : write r = ((write r).1, layout.part r) := by rw [← hpart]
  rw [Schema.read?_via_iff hwrite, hread, Schema.read?, if_pos honce, hpair, pair_eq_some, hrest,
    hown.fill?_eq_some_iff hcanonical, and_assoc]

/-- A tree is read as it is laid out, whether it is accepted or not. -/
theorem decode_eq_iff (h : layout.Fits schema) (hform : schema.wellFormed) {j : Json}
    (hcanonical : j.Canonical) {x : Except DecodeError R} :
    schema.decode .value (Document.ofJson j) = x ↔ layout.Outcome j x := by
  cases j with
  | obj ms =>
    cases x with
    | error e =>
      rw [← error?_eq_some_iff, h.error?_iff hform hcanonical]
      exact ⟨.rejected rfl, Outcome.reported⟩
    | ok r =>
      have hread := schema.toOption_decode (m := .value) (Room.holds_unlimited (Json.obj ms).depth)
      rw [eq_ok_iff, hread, h.read?_iff hform hcanonical]
      constructor
      · rintro ⟨hown, hlater, hunread⟩
        exact .accepted rfl hown hlater hunread
      · intro houtcome
        cases houtcome with
        | accepted _ hown hlater hunread => exact ⟨hown, hlater, hunread⟩
  | _ =>
    obtain ⟨-, -, -, -, -⟩ := h
    constructor
    · rintro rfl
      exact .noObject nofun
    · intro houtcome
      cases houtcome with
      | noObject => rfl
      | rejected hobject | accepted hobject => exact nomatch hobject

end Layout.Fits

end ServiceBroker.Wire
