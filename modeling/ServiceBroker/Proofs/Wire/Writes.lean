import Mathlib.Data.List.Forall2
import ServiceBroker.Proofs.Wire.Reading

/-!
# Documents that write a value

`Writes` says of a document that it writes a value the way a schema has it, in whatever order the
members of its objects stand. Such a document is read back as that value.
-/
namespace ServiceBroker.Wire
open Json

/-! ## Laws of schemas -/

/-- The fields without which a record cannot be read. -/
def Fields.needed {α : Type} : Fields α → List String
  | .done => []
  | .required name _ rest => name :: rest.needed
  | .optional _ _ rest => rest.needed
  | .defaulted _ _ _ rest => rest.needed

/-- The members without which a document cannot be read. -/
def Schema.needed {α : Type} : Schema α → List String
  | .record _ fields => fields.needed
  | .shared _ fields _ => fields.needed
  | .via _ _ schema => schema.needed
  | .text | .flag | .any | .dict | .choice _ | .list _ | .either .. => []

/-- An object that lacks one of some members. -/
def Misses (names : List String) (j : Json) : Prop :=
  ∃ members, j = .obj members ∧ ∃ n ∈ names, members.lookup n = none

mutual
/-- The document writes the value, in whatever order the members of its objects stand. -/
def Schema.Writes {α : Type} : Schema α → α → Json → Prop
  | .text, s, j => j = .str s
  | .flag, b, j => j = .bool b
  | .any, v, j => Value.ofJson j = v
  | .dict, o, j => ∃ members, j = .obj members ∧ (members.map Prod.fst).Nodup ∧
      Object.ofMembers members = o
  | .choice v, a, j => j = .str (v.word a)
  | .list item, as, j => ∃ items, j = .arr items ∧ List.Forall₂ item.Writes as items
  | .record _ fields, a, j => ∃ members, j = .obj members ∧ (members.map Prod.fst).Nodup ∧
      fields.Writes a members
  | .shared _ fields rest, (a, b), j => ∃ members, j = .obj members ∧
      (members.map Prod.fst).Nodup ∧ fields.Writes a members ∧
      rest.Writes b (.obj (foreign fields.names members))
  | .either _ first _, .inl a, j => first.Writes a j
  | .either _ first second, .inr b, j => second.Writes b j ∧ Misses first.needed j
  | .via write _ schema, a, j => schema.Writes (write a) j

def Fields.Writes {α : Type} : Fields α → α → List (String × Json) → Prop
  | .done, _, _ => True
  | .required name schema rest, (a, b), members =>
    (∃ j, members.lookup name = some j ∧ schema.Writes a j) ∧ rest.Writes b members
  | .optional name _ rest, (none, b), members =>
    members.lookup name = none ∧ rest.Writes b members
  | .optional name schema rest, (some a, b), members =>
    (∃ j, members.lookup name = some j ∧ j ≠ .null ∧ schema.Writes a j) ∧ rest.Writes b members
  | .defaulted name schema default rest, (a, b), members =>
    ((∃ j, members.lookup name = some j ∧ schema.Writes a j) ∨
      (members.lookup name = none ∧ a = default.value)) ∧ rest.Writes b members
end

mutual
/-- What is read of what was written is what it was written from. -/
@[simp]
def Schema.Exact {α : Type} : Schema α → Prop
  | .text | .flag | .any | .dict | .choice _ => True
  | .list item => item.Exact
  | .record _ fields => fields.Exact
  | .shared _ fields rest => fields.Exact ∧ rest.Exact
  | .either _ first second => first.Exact ∧ second.Exact
  | .via write read schema => (∀ a, read (write a) = a) ∧ schema.Exact

@[simp]
def Fields.Exact {α : Type} : Fields α → Prop
  | .done => True
  | .required _ schema rest => schema.Exact ∧ rest.Exact
  | .optional _ schema rest => schema.Exact ∧ rest.Exact
  | .defaulted _ schema _ rest => schema.Exact ∧ rest.Exact
end

section

variable {α β : Type} {name : String} {rest : Fields β}

@[simp]
theorem Fields.exact_label : (label name rest).Exact ↔ rest.Exact := by simp [label]

@[simp]
theorem Fields.exact_switch {default : Bool} : (switch name default rest).Exact ↔ rest.Exact := by
  simp [switch]

@[simp]
theorem Fields.exact_freeForm : (freeForm name rest).Exact ↔ rest.Exact := by simp [freeForm]

@[simp]
theorem Fields.exact_items {item : Schema α} :
    (items name item rest).Exact ↔ item.Exact ∧ rest.Exact := by simp [items]

end

/-- What is read of what was written is what `erase` leaves of it. Only the outermost type may leave
something unwritten. -/
def Schema.ExactUpTo {α : Type} (erase : α → α) : Schema α → Prop
  | .via write read schema => (∀ a, read (write a) = erase a) ∧ schema.Exact
  | schema => (∀ a, erase a = a) ∧ schema.Exact

/-! ## Failing to read -/

theorem Fields.fill?_of_missing {α : Type} : (fields : Fields α) →
    ∀ {members : List (String × Json)} {n : String}, n ∈ fields.needed →
      members.lookup n = none → fields.fill? (fields.slots members) = none
  | .done, _, _, hn, _ => by simp [Fields.needed] at hn
  | .required name schema rest, members, n, hn, hmissing => by
    rcases List.mem_cons.1 hn with rfl | hn
    · simp [Fields.fill?, hmissing]
    · simp [Fields.fill?, rest.fill?_of_missing hn hmissing]
  | .optional _ _ rest, members, _, hn, hmissing
  | .defaulted _ _ _ rest, members, _, hn, hmissing => by
    simp [Fields.fill?, rest.fill?_of_missing hn hmissing]

/-- Where a needed member is missing, nothing is read. -/
theorem Schema.read?_of_misses {α : Type} : (schema : Schema α) → ∀ {j : Json},
    Misses schema.needed j → schema.read? j = none
  | .record _ fields, _, ⟨_, rfl, _, hn, hmissing⟩
  | .shared _ fields _, _, ⟨_, rfl, _, hn, hmissing⟩ => by
    simp [Schema.read?, fields.fill?_of_missing hn hmissing]
  | .via _ _ schema, _, h => by simp [Schema.read?, schema.read?_of_misses h]
  | .text, _, ⟨_, _, _, hn, _⟩ | .flag, _, ⟨_, _, _, hn, _⟩
  | .any, _, ⟨_, _, _, hn, _⟩ | .dict, _, ⟨_, _, _, hn, _⟩
  | .choice _, _, ⟨_, _, _, hn, _⟩ | .list _, _, ⟨_, _, _, hn, _⟩
  | .either .., _, ⟨_, _, _, hn, _⟩ => by simp [Schema.needed] at hn

/-! ## Reading what was written -/

theorem mapM_of_forall₂ {α : Type} {read? : Json → Option α} {R : α → Json → Prop} {as : List α}
    {items : List Json} (h : List.Forall₂ R as items) (hread : ∀ a j, R a j → read? j = some a) :
    items.mapM read? = some as := by
  induction h with
  | nil => rfl
  | cons hR _ ih => simp [hread _ _ hR, ih]

mutual
theorem Schema.read?_of_writes {α : Type} : (schema : Schema α) → schema.Exact →
    ∀ {a : α} {j : Json}, schema.Writes a j → schema.read? j = some a
  | .text, _, _, _, h | .flag, _, _, _, h => by
    obtain rfl := h
    rfl
  | .any, _, _, _, h => congrArg some h
  | .dict, _, _, _, h => by
    obtain ⟨members, rfl, -, rfl⟩ := h
    rfl
  | .choice v, _, a, _, h => by
    obtain rfl := h
    exact v.find_word a
  | .list item, hexact, as, _, h => by
    obtain ⟨items, rfl, hitems⟩ := h
    exact mapM_of_forall₂ hitems fun a j => item.read?_of_writes hexact
  | .record name fields, hexact, a, _, h => by
    obtain ⟨members, rfl, hnodup, hfields⟩ := h
    simp only [Schema.read?, if_pos (Once.of_nodup hnodup _), fields.fill?_of_writes hexact hfields]
  | .shared name fields rest, hexact, (a, b), _, h => by
    obtain ⟨members, rfl, hnodup, hfields, hrest⟩ := h
    simp only [Schema.read?, if_pos (Once.of_nodup hnodup _),
      fields.fill?_of_writes hexact.1 hfields, rest.read?_of_writes hexact.2 hrest]
    rfl
  | .either name first second, hexact, .inl a, j, h => by
    simp [Schema.read?, first.read?_of_writes hexact.1 h]
  | .either name first second, hexact, .inr b, j, h => by
    -- Without a member that it needs, the first alternative does not fit.
    simp [Schema.read?, first.read?_of_misses h.2, second.read?_of_writes hexact.2 h.1]
  | .via write read schema, hexact, a, j, h => by
    simp [Schema.read?, schema.read?_of_writes hexact.2 h, hexact.1 a]

theorem Fields.fill?_of_writes {α : Type} : (fields : Fields α) → fields.Exact →
    ∀ {a : α} {members : List (String × Json)}, fields.Writes a members →
      fields.fill? (fields.slots members) = some a
  | .done, _, _, _, _ => rfl
  | .required name schema rest, hexact, (a, b), members, h => by
    obtain ⟨⟨j, hj, hwrites⟩, hrest⟩ := h
    simp [Fields.fill?, hj, schema.read?_of_writes hexact.1 hwrites,
      rest.fill?_of_writes hexact.2 hrest]
  | .optional name schema rest, hexact, (none, b), members, h => by
    obtain ⟨hmissing, hrest⟩ := h
    simp only [Fields.fill?, Fields.slots_optional, first?_cons, hmissing, List.tail_cons,
      rest.fill?_of_writes hexact.2 hrest]
    rfl
  | .optional name schema rest, hexact, (some a, b), members, h => by
    obtain ⟨⟨j, hj, hnull, hwrites⟩, hrest⟩ := h
    simp [Fields.fill?, hj, nullable?_of_ne_null hnull, schema.read?_of_writes hexact.1 hwrites,
      rest.fill?_of_writes hexact.2 hrest]
  | .defaulted name schema default rest, hexact, (a, b), members, h => by
    obtain ⟨hown, hrest⟩ := h
    have hlater := rest.fill?_of_writes hexact.2 hrest
    rcases hown with ⟨j, hj, hwrites⟩ | ⟨hmissing, rfl⟩
    · simp [Fields.fill?, hj, schema.read?_of_writes hexact.1 hwrites, hlater]
    · simp only [Fields.fill?, Fields.slots_defaulted, first?_cons, hmissing, List.tail_cons,
        hlater]
      rfl
end

/-- A document that writes a value is read as what is left of the value. -/
theorem Schema.decode_of_exactUpTo {α : Type} {erase : α → α} (schema : Schema α)
    (h : schema.ExactUpTo erase) {a : α} {j : Json} {m : Medium} (hwrites : schema.Writes a j)
    (hroom : m.room.Holds j.depth) : schema.decode m (Document.ofJson j) = .ok (erase a) := by
  rw [eq_ok_iff, schema.toOption_decode hroom]
  cases schema with
  | via write read schema =>
    rw [Schema.read?, schema.read?_of_writes h.2 hwrites, ← h.1]
    rfl
  | _ => rw [Schema.read?_of_writes _ h.2 hwrites, h.1]

end ServiceBroker.Wire
