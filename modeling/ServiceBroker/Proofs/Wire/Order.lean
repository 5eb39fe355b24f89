import Mathlib.Data.List.Forall2
import Mathlib.Data.Option.Basic
import Mathlib.Logic.Relation
import ServiceBroker.Proofs.Wire.Reading

/-!
# The order of members

Members of different names may change places anywhere in a document: what it is read as, or whether
it is read, does not depend on it.
-/
namespace ServiceBroker
namespace Json

/-- Two neighbouring members of different names change places somewhere in a tree. -/
inductive Swap : Json → Json → Prop
  | here (before after : List (String × Json)) {m n : String × Json} (h : m.1 ≠ n.1) :
    Swap (.obj (before ++ m :: n :: after)) (.obj (before ++ n :: m :: after))
  | member (before after : List (String × Json)) (name : String) {j k : Json} (h : Swap j k) :
    Swap (.obj (before ++ (name, j) :: after)) (.obj (before ++ (name, k) :: after))
  | item (before after : List Json) {j k : Json} (h : Swap j k) :
    Swap (.arr (before ++ j :: after)) (.arr (before ++ k :: after))

/-- The trees differ in the order of members only. Members of one name keep theirs. -/
def Reordered : Json → Json → Prop := Relation.EqvGen Swap

/-- Members that do not repeat a name may stand in any order. -/
theorem reordered_of_perm {members others : List (String × Json)}
    (h : (members.map Prod.fst).Nodup) (hperm : members.Perm others) :
    Reordered (.obj members) (.obj others) := by
  suffices hall : ∀ before, Reordered (.obj (before ++ members)) (.obj (before ++ others)) from
    hall []
  induction hperm with
  | nil => exact fun _ => .refl _
  | cons m _ ih =>
    intro before
    have hm := ih (List.nodup_cons.1 h).2 (before ++ [m])
    simpa using hm
  | swap m n members =>
    intro before
    have hne : n.1 ≠ m.1 := by
      rintro heq
      simp [heq] at h
    exact .rel _ _ (.here before members hne)
  | trans hfirst _ ihFirst ihSecond =>
    intro before
    have hnodup := ((hfirst.map Prod.fst).nodup_iff).1 h
    exact .trans _ _ _ (ihFirst h before) (ihSecond hnodup before)

end Json

namespace Wire
open Json

/-- Whatever is read of one tree is read of the other one. -/
def Alike (j k : Json) : Prop :=
  ∀ (α : Type) (schema : Schema α), schema.read? j = schema.read? k

namespace Alike

variable {j k : Json}

theorem refl (j : Json) : Alike j j := fun _ _ => rfl

theorem symm (h : Alike j k) : Alike k j := fun α schema => (h α schema).symm

theorem value_eq (h : Alike j k) : Value.ofJson j = Value.ofJson k := Option.some.inj (h Value .any)

theorem canonical_eq (h : Alike j k) : j.canonical = k.canonical := congrArg Value.json h.value_eq

theorem eq_null (h : Alike j k) (hnull : j = .null) : k = .null := by
  subst hnull
  by_contra hne
  exact canonical_ne_null hne h.canonical_eq.symm

theorem nullable?_eq (h : Alike j k) {α : Type} (schema : Schema α) :
    nullable? schema.read? j = nullable? schema.read? k := by
  by_cases hnull : j = .null
  · rw [hnull, h.eq_null hnull]
  · rw [nullable?_of_ne_null hnull, nullable?_of_ne_null fun hk => hnull (h.symm.eq_null hk),
      h α schema]

theorem nothing?_eq (h : Alike j k) : nothing? j = nothing? k := by
  by_cases hnull : j = .null
  · rw [hnull, h.eq_null hnull]
  · rw [nothing?_of_ne_null hnull, nothing?_of_ne_null fun hk => hnull (h.symm.eq_null hk)]

theorem rel_refl : (slot : Option Json) → Option.Rel Alike slot slot
  | none => .none
  | some j => .some (refl j)

end Alike

/-! ## Fields in slots that are alike -/

theorem elim_first?_alike {β : Type} (missing : Option β) {read? : Json → Option β}
    (hread : ∀ {j k}, Alike j k → read? j = read? k) {slots others : List (Option Json)}
    (h : List.Forall₂ (Option.Rel Alike) slots others) :
    (first? slots).elim missing read? = (first? others).elim missing read? := by
  cases h with
  | nil => rfl
  | cons hslot _ =>
    rw [first?_cons, first?_cons]
    cases hslot with
    | none => rfl
    | some h => exact hread h

theorem forall₂_tail {slots others : List (Option Json)}
    (h : List.Forall₂ (Option.Rel Alike) slots others) :
    List.Forall₂ (Option.Rel Alike) slots.tail others.tail := by
  cases h with
  | nil => exact .nil
  | cons _ h => exact h

theorem Fields.fill?_alike {α : Type} : (fields : Fields α) → ∀ {slots others : List (Option Json)},
    List.Forall₂ (Option.Rel Alike) slots others → fields.fill? slots = fields.fill? others
  | .done, _, _, h => by cases h <;> rfl
  | .required _ schema rest, _, _, h => by
    have hown := elim_first?_alike none (fun hj => hj _ schema) h
    rw [fill?, fill?, hown, rest.fill?_alike (forall₂_tail h)]
  | .optional _ schema rest, _, _, h => by
    have hown := elim_first?_alike (some none) (fun hj => hj.nullable?_eq schema) h
    rw [fill?, fill?, hown, rest.fill?_alike (forall₂_tail h)]
  | .defaulted _ schema default rest, _, _, h => by
    have hown := elim_first?_alike (some default.value) (fun hj => hj _ schema) h
    rw [fill?, fill?, hown, rest.fill?_alike (forall₂_tail h)]

/-! ## Members that change places -/

section

variable {m n : String × Json}

theorem once_swap {names : List String} (before after : List (String × Json)) :
    Once names (before ++ m :: n :: after) ↔ Once names (before ++ n :: m :: after) := by
  have hperm : (before ++ m :: n :: after).Perm (before ++ n :: m :: after) :=
    (List.Perm.swap n m after).append_left before
  simp only [Once, (hperm.map Prod.fst).count_eq]

theorem slots_swap {α : Type} (h : m.1 ≠ n.1) (fields : Fields α)
    (before after : List (String × Json)) : fields.slots (before ++ m :: n :: after) =
      fields.slots (before ++ n :: m :: after) := by
  refine List.map_congr_left fun k _ => ?_
  simp only [List.lookup_append]
  grind

theorem foreign_swap (names : List String) (before after : List (String × Json)) :
    foreign names (before ++ m :: n :: after) = foreign names (before ++ n :: m :: after) ∨
      foreign names (before ++ m :: n :: after) =
        foreign names before ++ m :: n :: foreign names after ∧
      foreign names (before ++ n :: m :: after) =
        foreign names before ++ n :: m :: foreign names after := by
  simp only [foreign, filterNames, List.filter_append, List.filter_cons]
  grind

theorem Schema.read?_swap {α : Type} (h : m.1 ≠ n.1) : (schema : Schema α) →
    (before after : List (String × Json)) →
      schema.read? (.obj (before ++ m :: n :: after)) =
        schema.read? (.obj (before ++ n :: m :: after))
  | .text, _, _ | .flag, _, _ | .list _, _, _ => rfl
  | .any, before, after => by
    refine congrArg some (Value.ext ?_)
    simp only [Value.ofJson, canonical_obj, mapMembers, List.map_append, List.map_cons]
    exact congrArg Json.obj
      (collect_swap (m := (m.1, m.2.canonical)) (n := (n.1, n.2.canonical)) h _ _)
  | .dict, before, after => by
    refine congrArg some (Object.ext ?_)
    simp only [Object.ofMembers, List.map_append, List.map_cons]
    exact collect_swap (m := (m.1, Value.ofJson m.2)) (n := (n.1, Value.ofJson n.2)) h _ _
  | .choice v, before, after => by
    rcases before with _ | ⟨x, _ | ⟨y, before⟩⟩ <;> rfl
  | .record _ fields, before, after => by
    simp only [read?, once_swap, slots_swap h]
  | .shared _ fields rest, before, after => by
    rcases foreign_swap (m := m) (n := n) fields.names before after with heq | ⟨heq, heq'⟩
    · simp only [read?, once_swap before after, slots_swap h, heq]
    · simp only [read?, once_swap before after, slots_swap h, heq, heq', rest.read?_swap h]
  | .either _ first second, before, after => by
    rw [read?, read?, first.read?_swap h, second.read?_swap h]
  | .via _ read schema, before, after => by
    rw [read?, read?, schema.read?_swap h]

end

/-! ## Members and items that are alike -/

section

variable {j k : Json}

theorem slots_member {α : Type} (h : Alike j k) (fields : Fields α)
    (before after : List (String × Json)) (name : String) :
    List.Forall₂ (Option.Rel Alike) (fields.slots (before ++ (name, j) :: after))
      (fields.slots (before ++ (name, k) :: after)) := by
  rw [Fields.slots, Fields.slots, List.forall₂_map_left_iff, List.forall₂_map_right_iff,
    List.forall₂_same]
  intro n _
  rw [List.lookup_append, List.lookup_append, lookup_cons, lookup_cons]
  cases before.lookup n with
  | some i => exact Alike.rel_refl (some i)
  | none =>
    rw [Option.none_or, Option.none_or]
    split
    · exact .some h
    · exact Alike.rel_refl _

theorem foreign_member (names : List String) (before after : List (String × Json))
    (name : String) :
    foreign names (before ++ (name, j) :: after) = foreign names (before ++ (name, k) :: after) ∨
      ∀ i, foreign names (before ++ (name, i) :: after) =
        foreign names before ++ (name, i) :: foreign names after := by
  simp only [foreign, filterNames, List.filter_append, List.filter_cons]
  grind

theorem Schema.read?_member {α : Type} (h : Alike j k) (name : String) : (schema : Schema α) →
    (before after : List (String × Json)) →
      schema.read? (.obj (before ++ (name, j) :: after)) =
        schema.read? (.obj (before ++ (name, k) :: after))
  | .text, _, _ | .flag, _, _ | .list _, _, _ => rfl
  | .any, before, after => by
    refine congrArg some (Value.ext ?_)
    simp only [Value.ofJson, canonical_obj, mapMembers, List.map_append, List.map_cons,
      h.canonical_eq]
  | .dict, before, after => by
    refine congrArg some (Object.ext ?_)
    simp only [Object.ofMembers, List.map_append, List.map_cons, h.value_eq]
  | .choice v, before, after => by
    rcases before with _ | ⟨x, _ | ⟨y, before⟩⟩
    · cases after with
      | nil => simp only [read?, Vocabulary.read?, List.nil_append, h.nothing?_eq]
      | cons x after => rfl
    · rfl
    · rfl
  | .record _ fields, before, after => by
    have hfill := fields.fill?_alike (slots_member h fields before after name)
    simp only [read?, Once, List.map_append, List.map_cons, hfill]
  | .shared _ fields rest, before, after => by
    have hfill := fields.fill?_alike (slots_member h fields before after name)
    have hrest : rest.read? (.obj (foreign fields.names (before ++ (name, j) :: after))) =
        rest.read? (.obj (foreign fields.names (before ++ (name, k) :: after))) := by
      rcases foreign_member fields.names before after name with heq | heq
      · rw [heq]
      · rw [heq, heq, rest.read?_member h name]
    simp only [read?, Once, List.map_append, List.map_cons, hfill, hrest]
  | .either _ first second, before, after => by
    rw [read?, read?, first.read?_member h name, second.read?_member h name]
  | .via _ read schema, before, after => by
    rw [read?, read?, schema.read?_member h name]

theorem Schema.read?_item {α : Type} (h : Alike j k) (before after : List Json) :
    (schema : Schema α) → schema.read? (.arr (before ++ j :: after)) =
      schema.read? (.arr (before ++ k :: after))
  | .text | .flag | .dict | .choice _ | .shared .. => rfl
  | .any => by
    refine congrArg some (Value.ext ?_)
    simp only [Value.ofJson, Json.canonical, canonicalItems_eq_map, List.map_append, List.map_cons,
      h.canonical_eq]
  | .list item => by
    simp only [read?, List.mapM_append, List.mapM_cons, h _ item]
  | .record _ fields => by
    refine fields.fill?_alike ?_
    rw [List.forall₂_map_left_iff, List.forall₂_map_right_iff]
    exact List.rel_append (List.forall₂_same.2 fun _ _ => .some (.refl _))
      (.cons (.some h) (List.forall₂_same.2 fun _ _ => .some (.refl _)))
  | .either _ first second => by
    rw [read?, read?, first.read?_item h, second.read?_item h]
  | .via _ read schema => by
    rw [read?, read?, schema.read?_item h]

end

/-! ## Documents -/

theorem alike_of_swap {j k : Json} (h : Swap j k) : Alike j k := by
  induction h with
  | here before after h => exact fun _ schema => schema.read?_swap h before after
  | member before after name _ ih => exact fun _ schema => schema.read?_member ih name before after
  | item before after _ ih => exact fun _ schema => schema.read?_item ih before after

theorem alike_of_reordered {j k : Json} (h : Reordered j k) : Alike j k := by
  induction h with
  | rel _ _ h => exact alike_of_swap h
  | refl _ => exact .refl _
  | symm _ _ _ ih => exact ih.symm
  | trans _ _ _ _ _ ih₁ ih₂ => exact fun α schema => (ih₁ α schema).trans (ih₂ α schema)

/-- Documents that differ in the order of members only are read as the same value. -/
theorem Schema.decode_of_reordered {α : Type} {schema : Schema α} {m : Medium} {j k : Json} {a : α}
    (h : Reordered j k) (hj : m.room.Holds j.depth) (hk : m.room.Holds k.depth) :
    schema.decode m (Document.ofJson j) = .ok a ↔ schema.decode m (Document.ofJson k) = .ok a := by
  rw [eq_ok_iff, eq_ok_iff, schema.toOption_decode hj, schema.toOption_decode hk,
    alike_of_reordered h α schema]

end Wire
end ServiceBroker
