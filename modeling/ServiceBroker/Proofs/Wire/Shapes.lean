import Mathlib.Data.List.Forall2
import ServiceBroker.Proofs.Wire.Reading

/-!
# Shapes

A shape says of a tree alone what value it stands for, if any. A record stands in an object, each of
whose fields is named once at most, or in an array by position. A schema has a shape if it reads
from a tree exactly the values that the tree stands for.
-/
namespace ServiceBroker.Wire
open Json

/-- Which trees stand for which values. -/
abbrev Shape (α : Type) := Json → α → Prop

namespace Shape

def text : Shape String := fun j s => j = .str s

theorem not_text_null (s : String) : ¬ text .null s := nofun

def flag : Shape Bool := fun j b => j = .bool b

def any : Shape Value := fun j v => v = Value.ofJson j

def dict : Shape Object := fun j o => ∃ members, j = .obj members ∧ o = Object.ofMembers members

def list {α : Type} (item : Shape α) : Shape (List α) :=
  fun j as => ∃ items, j = .arr items ∧ List.Forall₂ item items as

end Shape

/-! ## Slots of a record -/

section

variable {α : Type} (shape : Shape α)

inductive Given : Option Json → α → Prop
  | given {j : Json} {a : α} (h : shape j a) : Given (some j) a

/-- What stands for a field that may be missing or null. -/
inductive Optional : Option Json → Option α → Prop
  | missing : Optional none none
  | null : Optional (some .null) none
  | given {j : Json} {a : α} (h : shape j a) : Optional (some j) (some a)

/-- What stands for a field that may be missing. -/
inductive Defaulted (default : α) : Option Json → α → Prop
  | missing : Defaulted default none default
  | given {j : Json} {a : α} (h : shape j a) : Defaulted default (some j) a

end

/-- What stands for the fields of a record: members of an object, none of which is named twice, or
the items of an array, which may leave out fields at the end. -/
@[mk_iff]
inductive Record (names : List String) : Json → List (Option Json) → Prop
  | object (members : List (String × Json)) (h : Once names members) :
    Record names (.obj members) (names.map (members.lookup ·))
  | array (items : List Json) (h : items.length ≤ names.length) :
    Record names (.arr items)
      (items.map some ++ List.replicate (names.length - items.length) none)

theorem Record.length_slots {names : List String} {j : Json} {slots : List (Option Json)}
    (h : Record names j slots) : slots.length = names.length := by
  cases h with
  | object members h => rw [List.length_map]
  | array items h =>
    rw [List.length_append, List.length_map, List.length_replicate]
    omega

/-! ## Shapes of schemas -/

/-- Exactly the values that a tree stands for are read from it. -/
def Schema.Has {α : Type} (schema : Schema α) (shape : Shape α) : Prop :=
  ∀ j a, schema.read? j = some a ↔ shape j a

namespace Schema

variable {α β : Type} {schema : Schema α} {shape : Shape α} {slot : Option Json}

theorem has_text : text.Has .text := by
  intro j s
  cases j <;> simp [read?, Shape.text]

theorem has_flag : flag.Has .flag := by
  intro j b
  cases j <;> simp [read?, Shape.flag]

theorem has_any : any.Has .any := by
  intro j v
  simp [read?, Shape.any, eq_comm]

theorem has_dict : dict.Has .dict := by
  intro j o
  cases j <;> simp [read?, Shape.dict, eq_comm]

/-- A list is read from the values of its items. -/
theorem mapM_eq_some_iff {read? : Json → Option α} {items : List Json} {as : List α} :
    items.mapM read? = some as ↔ List.Forall₂ (fun j a => read? j = some a) items as := by
  induction items generalizing as with
  | nil => cases as <;> simp
  | cons j items ih =>
    cases as with
    | nil => cases hj : read? j <;> cases hitems : items.mapM read? <;> simp [hj, hitems]
    | cons a as =>
      rw [List.forall₂_cons, ← ih]
      cases hj : read? j <;> cases hitems : items.mapM read? <;> simp [hj, hitems]

theorem has_list (h : schema.Has shape) : (list schema).Has (.list shape) := by
  intro j as
  cases j with
  | arr items =>
    have hitems : (fun j a => schema.read? j = some a) = shape := by
      funext j a
      exact propext (h j a)
    simp only [read?, Shape.list, Json.arr.injEq, exists_eq_left', mapM_eq_some_iff, hitems]
  | _ => simp [read?, Shape.list]

section

variable (h : ∀ j ∈ slot, ∀ a, schema.read? j = some a ↔ shape j a)
include h

theorem slot_required {a : α} : slot.elim none schema.read? = some a ↔ Given shape slot a := by
  constructor
  · intro hread
    cases slot with
    | none => exact nomatch hread
    | some j => exact .given ((h j rfl a).1 hread)
  · rintro ⟨hj⟩
    exact (h _ rfl a).2 hj

theorem slot_optional (hnull : ∀ a, ¬ shape .null a) {o : Option α} :
    slot.elim (some none) (nullable? schema.read?) = some o ↔ Optional shape slot o := by
  constructor
  · intro hread
    cases slot with
    | none =>
      cases hread
      exact .missing
    | some j =>
      by_cases hj : j = .null
      · subst hj
        cases hread
        exact .null
      · have hsome : some <$> schema.read? j = some o := (nullable?_of_ne_null hj).symm.trans hread
        obtain ⟨a, ha, rfl⟩ := Option.map_eq_some_iff.1 hsome
        exact .given ((h j rfl a).1 ha)
  · intro hslot
    cases hslot with
    | missing | null => rfl
    | @given j a hj =>
      have hne : j ≠ .null := by
        rintro rfl
        exact hnull a hj
      exact (nullable?_of_ne_null hne).trans (congrArg (some <$> ·) ((h j rfl a).2 hj))

theorem slot_defaulted {default a : α} :
    slot.elim (some default) schema.read? = some a ↔ Defaulted shape default slot a := by
  constructor
  · intro hread
    cases slot with
    | none =>
      cases hread
      exact .missing
    | some j => exact .given ((h j rfl a).1 hread)
  · intro hslot
    cases hslot with
    | missing => rfl
    | given hj => exact (h _ rfl a).2 hj

end

namespace Has

/-- A tree stands for one value at most. -/
theorem unique (h : schema.Has shape) {j : Json} {a b : α} (ha : shape j a) (hb : shape j b) :
    a = b :=
  Option.some.inj (((h j a).2 ha).symm.trans ((h j b).2 hb))

theorem decode_eq_ok_iff (h : schema.Has shape) {j : Json} {a : α} :
    schema.decode .value (Document.ofJson j) = .ok a ↔ shape j a := by
  have hread := schema.toOption_decode (m := .value) (Room.holds_unlimited j.depth)
  rw [eq_ok_iff, hread, h j a]

variable {name : String} {rest : Fields β} {slots : List (Option Json)} {b : β}

theorem required (h : schema.Has shape) {a : α} :
    (Fields.required name schema rest).fill? (slot :: slots) = some (a, b) ↔
      Given shape slot a ∧ rest.fill? slots = some b :=
  Fields.fill?_required.trans (and_congr_left' (slot_required fun j _ => h j))

theorem optional (h : schema.Has shape) (hnull : ∀ a, ¬ shape .null a) {o : Option α} :
    (Fields.optional name schema rest).fill? (slot :: slots) = some (o, b) ↔
      Optional shape slot o ∧ rest.fill? slots = some b :=
  Fields.fill?_optional.trans (and_congr_left' (slot_optional (fun j _ => h j) hnull))

theorem defaulted (h : schema.Has shape) {default : Default α} {a : α} :
    (Fields.defaulted name schema default rest).fill? (slot :: slots) = some (a, b) ↔
      Defaulted shape default.value slot a ∧ rest.fill? slots = some b :=
  Fields.fill?_defaulted.trans (and_congr_left' (slot_defaulted fun j _ => h j))

end Has
end Schema

theorem Fields.fill?_optional_text {β : Type} {name : String} {rest : Fields β}
    {slot : Option Json} {slots : List (Option Json)} {o : Option String} {b : β} :
    (optional name .text rest).fill? (slot :: slots) = some (o, b) ↔
      Optional .text slot o ∧ rest.fill? slots = some b :=
  Schema.has_text.optional Shape.not_text_null

/-! ## Records -/

/-- Slots that are left out at the end are empty. -/
theorem Fields.fill?_append_none {α : Type} : (fields : Fields α) → ∀ {slots : List (Option Json)}
    {n : Nat}, slots.length + n ≤ fields.names.length →
      fields.fill? (slots ++ List.replicate n none) = fields.fill? slots
  | .done, slots, n, h => by
    obtain rfl : n = 0 := by
      simp only [names, List.length_nil] at h
      omega
    rw [List.replicate_zero, List.append_nil]
  | .required _ schema rest, slots, n, h | .optional _ schema rest, slots, n, h
  | .defaulted _ schema _ rest, slots, n, h => by
    simp only [names, List.length_cons] at h
    have htail : rest.fill? (slots ++ List.replicate n none).tail = rest.fill? slots.tail := by
      cases slots with
      | nil =>
        have hrest : ([] : List (Option Json)).length + (n - 1) ≤ rest.names.length := by
          simp only [List.length_nil] at h ⊢
          omega
        rw [List.nil_append, List.tail_replicate]
        exact rest.fill?_append_none hrest
      | cons slot slots =>
        rw [List.length_cons] at h
        exact rest.fill?_append_none (by omega)
    have hfirst : first? (slots ++ List.replicate n none) = first? slots := by
      cases slots with
      | nil => cases n <;> rfl
      | cons slot slots => rfl
    simp only [fill?, hfirst, htail]

theorem Fields.length_le_of_fill? {α : Type} : (fields : Fields α) →
    ∀ {slots : List (Option Json)} {a : α}, fields.fill? slots = some a →
      slots.length ≤ fields.names.length
  | .done, slots, _, h => by
    cases slots with
    | nil => exact Nat.le_refl _
    | cons slot slots => exact nomatch h
  | .required _ schema rest, slots, (a, b), h | .optional _ schema rest, slots, (a, b), h
  | .defaulted _ schema _ rest, slots, (a, b), h => by
    obtain ⟨-, hrest⟩ := pair_eq_some.1 h
    have hlength := rest.length_le_of_fill? hrest
    rw [List.length_tail] at hlength
    simp only [names, List.length_cons]
    omega

/-- A record is read from what stands for its fields. -/
theorem Schema.read?_record {α : Type} {name : String} {fields : Fields α} {j : Json} {a : α} :
    (record name fields).read? j = some a ↔
      ∃ slots, Record fields.names j slots ∧ fields.fill? slots = some a := by
  constructor
  · intro h
    cases j with
    | obj members =>
      simp only [read?] at h
      split at h
      · next honce => exact ⟨_, .object members honce, h⟩
      · exact nomatch h
    | arr items =>
      have hlength : items.length ≤ fields.names.length := by
        simpa using fields.length_le_of_fill? h
      refine ⟨_, .array items hlength, ?_⟩
      rwa [fields.fill?_append_none (by rw [List.length_map]; omega)]
    | _ => exact nomatch h
  · rintro ⟨slots, hrecord, hfill⟩
    cases hrecord with
    | object members honce => exact (if_pos honce).trans hfill
    | array items hlength =>
      rwa [fields.fill?_append_none (by rw [List.length_map]; omega)] at hfill

/-- Where the fields are taken and none is named twice, the rest of the object decides. -/
theorem Schema.decode_via_shared {α β γ : Type} {name : String} {fields : Fields α}
    {rest : Schema β} {write : γ → α × β} {read : α × β → γ} {m : Medium}
    {members : List (String × Json)} {a : α} (hroom : m.room.Holds (Json.obj members).depth)
    (honce : Once fields.names members) (hfill : fields.fill? (fields.slots members) = some a) :
    (via write read (shared name fields rest)).decode m (Document.ofJson (.obj members)) =
      (fun b => read (a, b)) <$>
        rest.decode .value (Document.ofJson (.obj (foreign fields.names members))) := by
  obtain ⟨inner, henter, hinner⟩ := Medium.enter_of_holds hroom
  have hbuild : fields.build inner (Document.ofMembers members) = .ok a :=
    eq_ok_iff.2 ((fields.toOption_build hinner).trans hfill)
  have htake := Document.takeMembers_ofMembers (foreign fields.names members)
    (hinner.mono (depthMembers_foreign_le fields.names members))
  have hvisit : visit (fields.check? inner) (fun d => (fun _ => ()) <$> d.take inner.room) []
      (Document.ofMembers members) = .ok () := by
    refine Fields.visit_of_build_tree ?_ honce hbuild
    intro x hx
    rw [Document.take_ofJson x.2 (hinner.mono (depth_le_depthMembers hx))]
    rfl
  simp only [decode, Document.ofJson, henter, hvisit, hbuild, ok_bind, others_ofMembers, htake,
    ofReading]
  cases rest.decode .value (.obj (Document.ofMembers (foreign fields.names members)) .closed) with
  | error | ok => rfl

end ServiceBroker.Wire
