import ServiceBroker.Proofs.Json.Text
import ServiceBroker.Proofs.Wire.Writes
import ServiceBroker.Wire.Encode

/-!
# Encodings

The encoding of a value writes it, as long as the fields of every record are named apart, and as
long as free-form members that share an object with fields are named apart from them. What writes a
value still does when its members are sorted.
-/
namespace ServiceBroker.Wire
open Json

/-! ## Well-formed schemas -/

/-- Whether the values are written as objects. -/
def Schema.isObject {α : Type} : Schema α → Bool
  | .dict | .record .. => true
  | .shared _ _ rest => rest.isObject
  | .either _ first second => first.isObject && second.isObject
  | .via _ _ schema => schema.isObject
  | .text | .flag | .any | .choice _ | .list _ => false

/-- The names that members of an object may have; `none` when they are free-form. -/
def Schema.names? {α : Type} : Schema α → Option (List String)
  | .record _ fields => some fields.names
  | .shared _ fields rest => rest.names?.map (fields.names ++ ·)
  | .either _ first second =>
    first.names?.bind fun names => second.names?.map (names ++ ·)
  | .via _ _ schema => schema.names?
  | .text | .flag | .any | .dict | .choice _ | .list _ => none

/-- Whether no value is written as null. -/
def Schema.solid {α : Type} : Schema α → Bool
  | .any => false
  | .either _ first second => first.solid && second.solid
  | .via _ _ schema => schema.solid
  | .text | .flag | .dict | .choice _ | .list _ | .record .. | .shared .. => true

mutual
/-- Whether names that share an object are distinct, and alternatives can be told apart. -/
def Schema.wellFormed {α : Type} : Schema α → Bool
  | .text | .flag | .any | .dict | .choice _ => true
  | .list item => item.wellFormed
  | .record _ fields => fields.wellFormed
  | .shared _ fields rest => fields.wellFormed && rest.wellFormed && rest.isObject &&
      (rest.names?.getD []).all (· ∉ fields.names)
  | .either _ first second => first.wellFormed && second.wellFormed && second.isObject &&
      second.names?.any fun names => first.needed.any (· ∉ names)
  | .via _ _ schema => schema.wellFormed

def Fields.wellFormed {α : Type} : Fields α → Bool
  | .done => true
  | .required name schema rest => name ∉ rest.names && schema.wellFormed && rest.wellFormed
  | .optional name schema rest =>
    name ∉ rest.names && schema.solid && schema.wellFormed && rest.wellFormed
  | .defaulted name schema _ rest => name ∉ rest.names && schema.wellFormed && rest.wellFormed
end

section

variable {α β : Type} {name : String}

theorem Schema.wellFormed_shared {fields : Fields α} {rest : Schema β} :
    (shared name fields rest).wellFormed ↔ fields.wellFormed ∧ rest.wellFormed ∧ rest.isObject ∧
      ∀ n ∈ rest.names?.getD [], n ∉ fields.names := by
  simp [wellFormed, and_assoc]

theorem Schema.wellFormed_either {first : Schema α} {second : Schema β} :
    (either name first second).wellFormed ↔ first.wellFormed ∧ second.wellFormed ∧
      second.isObject ∧ ∃ names, second.names? = some names ∧ ∃ n ∈ first.needed, n ∉ names := by
  simp [wellFormed, and_assoc, Option.any_eq_true]

theorem Fields.wellFormed_required {schema : Schema α} {rest : Fields β} :
    (required name schema rest).wellFormed ↔
      name ∉ rest.names ∧ schema.wellFormed ∧ rest.wellFormed := by
  simp [wellFormed, and_assoc]

theorem Fields.wellFormed_optional {schema : Schema α} {rest : Fields β} :
    (optional name schema rest).wellFormed ↔
      name ∉ rest.names ∧ schema.solid ∧ schema.wellFormed ∧ rest.wellFormed := by
  simp [wellFormed, and_assoc]

theorem Fields.wellFormed_defaulted {schema : Schema α} {default : Default α} {rest : Fields β} :
    (defaulted name schema default rest).wellFormed ↔
      name ∉ rest.names ∧ schema.wellFormed ∧ rest.wellFormed := by
  simp [wellFormed, and_assoc]

end

/-! ## Plain values -/

mutual
/-- Free-form parts have numbers of 64 bits only, and no member named like a field beside it. -/
def Schema.Plain {α : Type} : Schema α → α → Prop
  | .text, _ | .flag, _ | .choice _, _ => True
  | .any, v => Integral v.json
  | .dict, o => Integral o.toJson
  | .list item, as => ∀ a ∈ as, item.Plain a
  | .record _ fields, a => fields.Plain a
  | .shared _ fields rest, (a, b) => fields.Plain a ∧ rest.Plain b ∧
      (rest.names? = none → ∀ m ∈ membersOf (rest.encode b), m.1 ∉ fields.names)
  | .either _ first _, .inl a => first.Plain a
  | .either _ _ second, .inr b => second.Plain b
  | .via write _ schema, a => schema.Plain (write a)

def Fields.Plain {α : Type} : Fields α → α → Prop
  | .done, _ => True
  | .required _ schema rest, (a, b) => schema.Plain a ∧ rest.Plain b
  | .optional _ schema rest, (o, b) => (∀ a ∈ o, schema.Plain a) ∧ rest.Plain b
  | .defaulted _ schema _ rest, (a, b) => schema.Plain a ∧ rest.Plain b
end

mutual
/-- No free-form member is named like a field beside it. -/
def Schema.Apart {α : Type} : Schema α → α → Prop
  | .text, _ | .flag, _ | .any, _ | .dict, _ | .choice _, _ => True
  | .list item, as => ∀ a ∈ as, item.Apart a
  | .record _ fields, a => fields.Apart a
  | .shared _ fields rest, (a, b) => fields.Apart a ∧ rest.Apart b ∧
      (rest.names? = none → ∀ m ∈ membersOf (rest.encode b), m.1 ∉ fields.names)
  | .either _ first _, .inl a => first.Apart a
  | .either _ _ second, .inr b => second.Apart b
  | .via write _ schema, a => schema.Apart (write a)

def Fields.Apart {α : Type} : Fields α → α → Prop
  | .done, _ => True
  | .required _ schema rest, (a, b) => schema.Apart a ∧ rest.Apart b
  | .optional _ schema rest, (o, b) => (∀ a ∈ o, schema.Apart a) ∧ rest.Apart b
  | .defaulted _ schema _ rest, (a, b) => schema.Apart a ∧ rest.Apart b
end

mutual
theorem Schema.apart_of_plain {α : Type} : (schema : Schema α) → (a : α) → schema.Plain a →
    schema.Apart a
  | .text, _, _ | .flag, _, _ | .any, _, _ | .dict, _, _ | .choice _, _, _ => trivial
  | .list item, _, h => fun a ha => item.apart_of_plain a (h a ha)
  | .record _ fields, a, h => fields.apart_of_plain a h
  | .shared _ fields rest, (a, b), h =>
    ⟨fields.apart_of_plain a h.1, rest.apart_of_plain b h.2.1, h.2.2⟩
  | .either _ first _, .inl a, h => first.apart_of_plain a h
  | .either _ _ second, .inr b, h => second.apart_of_plain b h
  | .via write _ schema, a, h => schema.apart_of_plain (write a) h

theorem Fields.apart_of_plain {α : Type} : (fields : Fields α) → (a : α) → fields.Plain a →
    fields.Apart a
  | .done, _, _ => trivial
  | .required _ schema rest, (a, b), h | .defaulted _ schema _ rest, (a, b), h =>
    ⟨schema.apart_of_plain a h.1, rest.apart_of_plain b h.2⟩
  | .optional _ schema rest, (_, b), h =>
    ⟨fun a ha => schema.apart_of_plain a (h.1 a ha), rest.apart_of_plain b h.2⟩
end

/-! ## Names of an encoding -/

/-- A record writes some of its fields, in their order. -/
theorem Fields.names_encode {α : Type} : (fields : Fields α) → (a : α) →
    ((fields.encode a).map Prod.fst).Sublist fields.names
  | .done, _ => .slnil
  | .required name _ rest, (_, b) => (rest.names_encode b).cons_cons name
  | .optional name _ rest, (none, b) => (rest.names_encode b).cons name
  | .optional name _ rest, (some _, b) => (rest.names_encode b).cons_cons name
  | .defaulted name _ default rest, (a, b) => by
    simp only [Fields.encode]
    split
    · exact (rest.names_encode b).cons name
    · exact (rest.names_encode b).cons_cons name

theorem Fields.nodup_names {α : Type} : (fields : Fields α) → fields.wellFormed →
    fields.names.Nodup
  | .done, _ => List.nodup_nil
  | .required _ _ rest, h => by
    obtain ⟨hname, -, hrest⟩ := wellFormed_required.1 h
    exact List.nodup_cons.2 ⟨hname, rest.nodup_names hrest⟩
  | .optional _ _ rest, h => by
    obtain ⟨hname, -, -, hrest⟩ := wellFormed_optional.1 h
    exact List.nodup_cons.2 ⟨hname, rest.nodup_names hrest⟩
  | .defaulted _ _ _ rest, h => by
    obtain ⟨hname, -, hrest⟩ := wellFormed_defaulted.1 h
    exact List.nodup_cons.2 ⟨hname, rest.nodup_names hrest⟩

theorem Fields.nodup_encode {α : Type} {fields : Fields α} (h : fields.wellFormed) (a : α) :
    ((fields.encode a).map Prod.fst).Nodup :=
  (fields.names_encode a).nodup (fields.nodup_names h)

/-- The members that share an object with fields are named apart from them. -/
theorem Schema.disjoint_of_apart {α β : Type} {name : String} {fields : Fields α} {rest : Schema β}
    {a : α} {b : β} {members : List (String × Json)} (h : (shared name fields rest).wellFormed)
    (hapart : (shared name fields rest).Apart (a, b)) (hencode : rest.encode b = .obj members)
    (hnames : ∀ names, rest.names? = some names → members.map Prod.fst ⊆ names) :
    ∀ n ∈ members.map Prod.fst, n ∉ fields.names := by
  obtain ⟨-, -, -, hdisjoint⟩ := wellFormed_shared.1 h
  obtain ⟨-, -, hfree⟩ := hapart
  intro n hn
  cases hrest : rest.names? with
  | none =>
    obtain ⟨m, hm, rfl⟩ := List.mem_map.1 hn
    rw [hencode] at hfree
    exact hfree hrest m hm
  | some names =>
    rw [hrest] at hdisjoint
    exact hdisjoint n (hnames names hrest hn)

/-- The encoding of an object names its members apart, by names that it may have. -/
theorem Schema.encode_object {α : Type} : (schema : Schema α) → schema.isObject →
    schema.wellFormed → (a : α) → schema.Apart a → ∃ members, schema.encode a = .obj members ∧
      (members.map Prod.fst).Nodup ∧
        ∀ names, schema.names? = some names → members.map Prod.fst ⊆ names
  | .dict, _, _, o, _ => by
    refine ⟨mapMembers Value.json o.members, rfl, ?_, fun _ h => nomatch h⟩
    rw [names_mapMembers]
    exact o.sorted.nodup
  | .record _ fields, _, h, a, _ => by
    refine ⟨fields.encode a, rfl, Fields.nodup_encode h a, ?_⟩
    intro names hnames
    cases hnames
    exact (fields.names_encode a).subset
  | .shared _ fields rest, hobject, h, (a, b), hapart => by
    obtain ⟨hfields, hrest, -, -⟩ := wellFormed_shared.1 h
    obtain ⟨members, hencode, hnodup, hnames⟩ := rest.encode_object hobject hrest b hapart.2.1
    have hdisjoint := disjoint_of_apart h hapart hencode hnames
    have hown := (fields.names_encode a).subset
    refine ⟨fields.encode a ++ members, by rw [Schema.encode, hencode, membersOf], ?_, ?_⟩
    · rw [List.map_append, List.nodup_append]
      refine ⟨Fields.nodup_encode hfields a, hnodup, ?_⟩
      rintro n hn _ hk rfl
      exact hdisjoint n hk (hown hn)
    · intro names heq
      simp only [names?, Option.map_eq_some_iff] at heq
      obtain ⟨others, hothers, rfl⟩ := heq
      rw [List.map_append]
      exact List.append_subset.2 ⟨List.subset_append_of_subset_left _ hown,
        List.subset_append_of_subset_right _ (hnames others hothers)⟩
  | .either _ first second, hobject, h, .inl a, hapart => by
    obtain ⟨hfirst, -, -, -⟩ := wellFormed_either.1 h
    obtain ⟨hobject, -⟩ := Bool.and_eq_true_iff.1 hobject
    obtain ⟨members, hencode, hnodup, hnames⟩ := first.encode_object hobject hfirst a hapart
    refine ⟨members, hencode, hnodup, ?_⟩
    intro names heq
    simp only [names?, Option.bind_eq_some_iff, Option.map_eq_some_iff] at heq
    obtain ⟨left, hleft, right, -, rfl⟩ := heq
    exact List.subset_append_of_subset_left right (hnames left hleft)
  | .either _ first second, hobject, h, .inr b, hapart => by
    obtain ⟨-, hsecond, -, -⟩ := wellFormed_either.1 h
    obtain ⟨-, hobject⟩ := Bool.and_eq_true_iff.1 hobject
    obtain ⟨members, hencode, hnodup, hnames⟩ := second.encode_object hobject hsecond b hapart
    refine ⟨members, hencode, hnodup, ?_⟩
    intro names heq
    simp only [names?, Option.bind_eq_some_iff, Option.map_eq_some_iff] at heq
    obtain ⟨left, -, right, hright, rfl⟩ := heq
    exact List.subset_append_of_subset_right left (hnames right hright)
  | .via write _ schema, hobject, h, a, hapart =>
    schema.encode_object hobject h (write a) hapart

/-! ## Encodings write their values -/

theorem Schema.encode_ne_null {α : Type} : (schema : Schema α) → schema.solid → (a : α) →
    schema.encode a ≠ .null
  | .text, _, _ | .flag, _, _ | .dict, _, _ | .choice _, _, _ | .list _, _, _
  | .record .., _, _ | .shared .., _, (_, _) => fun h => by simp [encode, Object.toJson] at h
  | .either _ first _, h, .inl a => first.encode_ne_null (Bool.and_eq_true_iff.1 h).1 a
  | .either _ _ second, h, .inr b => second.encode_ne_null (Bool.and_eq_true_iff.1 h).2 b
  | .via write _ schema, h, a => schema.encode_ne_null h (write a)

section

variable {β : Type} {name : String} {rest : Fields β} {b : β} {members : List (String × Json)}

/-- Behind a field that is written, the other fields are looked up as if it were not there. -/
theorem Fields.lookup_written (hname : name ∉ rest.names) {j : Json}
    (h : ∀ n ∈ name :: rest.names, members.lookup n = ((name, j) :: rest.encode b).lookup n) :
    members.lookup name = some j ∧
      ∀ n ∈ rest.names, members.lookup n = (rest.encode b).lookup n := by
  obtain ⟨hown, hrest⟩ := List.forall_mem_cons.1 h
  constructor
  · rw [hown, lookup_cons, if_pos rfl]
  · intro n hn
    have hne : n ≠ name := by grind
    rw [hrest n hn, lookup_cons, if_neg hne]

theorem Fields.lookup_omitted (hname : name ∉ rest.names)
    (h : ∀ n ∈ name :: rest.names, members.lookup n = (rest.encode b).lookup n) :
    members.lookup name = none ∧ ∀ n ∈ rest.names, members.lookup n = (rest.encode b).lookup n := by
  obtain ⟨hown, hrest⟩ := List.forall_mem_cons.1 h
  have hmissing := lookup_eq_none fun hn => hname ((rest.names_encode b).subset hn)
  exact ⟨hown.trans hmissing, hrest⟩

end

section

variable {names : List String} {members : List (String × Json)}

theorem foreign_append (names : List String) (ms ns : List (String × Json)) :
    foreign names (ms ++ ns) = foreign names ms ++ foreign names ns :=
  List.filter_append ..

theorem foreign_eq_nil (h : members.map Prod.fst ⊆ names) : foreign names members = [] := by
  refine List.filter_eq_nil_iff.2 ?_
  intro m hm
  simpa using h (List.mem_map_of_mem hm)

theorem foreign_eq_self (h : ∀ n ∈ members.map Prod.fst, n ∉ names) :
    foreign names members = members := by
  refine List.filter_eq_self.2 ?_
  intro m hm
  simpa using h m.1 (List.mem_map_of_mem hm)

end

mutual
theorem Schema.encode_writes {α : Type} : (schema : Schema α) → schema.wellFormed → (a : α) →
    schema.Apart a → schema.Writes a (schema.encode a)
  | .text, _, _, _ | .flag, _, _, _ | .choice _, _, _, _ => rfl
  | .any, _, v, _ => Value.ofJson_json v
  | .dict, _, o, hapart => by
    obtain ⟨members, hencode, hnodup, -⟩ := Schema.dict.encode_object rfl rfl o hapart
    cases hencode
    exact ⟨_, rfl, hnodup, Object.ofMembers_json o⟩
  | .list item, h, as, hapart => by
    refine ⟨as.map item.encode, rfl, ?_⟩
    rw [List.forall₂_map_right_iff, List.forall₂_same]
    exact fun a ha => item.encode_writes h a (hapart a ha)
  | .record name fields, h, a, hapart =>
    ⟨fields.encode a, rfl, Fields.nodup_encode h a, fields.encode_writes h a hapart fun _ _ => rfl⟩
  | .shared name fields rest, h, (a, b), hapart => by
    obtain ⟨hfields, hrest, hobject, -⟩ := Schema.wellFormed_shared.1 h
    obtain ⟨members, hencode, -, hnames⟩ := rest.encode_object hobject hrest b hapart.2.1
    obtain ⟨all, hall, hnodup, -⟩ :=
      (Schema.shared name fields rest).encode_object hobject h (a, b) hapart
    have hdisjoint := Schema.disjoint_of_apart h hapart hencode hnames
    rw [Schema.encode, hencode, membersOf] at hall ⊢
    cases hall
    refine ⟨_, rfl, hnodup, fields.encode_writes hfields a hapart.1 ?_, ?_⟩
    · intro n hn
      have hmissing := lookup_eq_none fun hmem => hdisjoint n hmem hn
      rw [List.lookup_append, hmissing, Option.or_none]
    · have hown := foreign_eq_nil (fields.names_encode a).subset
      rw [foreign_append, hown, foreign_eq_self hdisjoint, List.nil_append, ← hencode]
      exact rest.encode_writes hrest b hapart.2.1
  | .either name first second, h, .inl a, hapart => by
    obtain ⟨hfirst, -, -, -⟩ := Schema.wellFormed_either.1 h
    exact first.encode_writes hfirst a hapart
  | .either name first second, h, .inr b, hapart => by
    obtain ⟨-, hsecond, hobject, names, hnames, n, hneeded, hforeign⟩ :=
      Schema.wellFormed_either.1 h
    obtain ⟨members, hencode, -, hmembers⟩ := second.encode_object hobject hsecond b hapart
    have hmissing := lookup_eq_none fun hn => hforeign (hmembers names hnames hn)
    exact ⟨second.encode_writes hsecond b hapart, members, hencode, n, hneeded, hmissing⟩
  | .via write _ schema, h, a, hapart => schema.encode_writes h (write a) hapart

theorem Fields.encode_writes {α : Type} : (fields : Fields α) → fields.wellFormed → (a : α) →
    fields.Apart a → ∀ {members : List (String × Json)},
      (∀ n ∈ fields.names, members.lookup n = (fields.encode a).lookup n) → fields.Writes a members
  | .done, _, _, _, _, _ => trivial
  | .required name schema rest, h, (a, b), hapart, members, hlookup => by
    obtain ⟨hname, hschema, hrest⟩ := Fields.wellFormed_required.1 h
    obtain ⟨hown, hlater⟩ := Fields.lookup_written hname hlookup
    exact ⟨⟨_, hown, schema.encode_writes hschema a hapart.1⟩,
      rest.encode_writes hrest b hapart.2 hlater⟩
  | .optional name schema rest, h, (none, b), hapart, members, hlookup => by
    obtain ⟨hname, -, -, hrest⟩ := Fields.wellFormed_optional.1 h
    obtain ⟨hown, hlater⟩ := Fields.lookup_omitted hname hlookup
    exact ⟨hown, rest.encode_writes hrest b hapart.2 hlater⟩
  | .optional name schema rest, h, (some a, b), hapart, members, hlookup => by
    obtain ⟨hname, hsolid, hschema, hrest⟩ := Fields.wellFormed_optional.1 h
    obtain ⟨hown, hlater⟩ := Fields.lookup_written hname hlookup
    have hwrites := schema.encode_writes hschema a (hapart.1 a rfl)
    exact ⟨⟨_, hown, schema.encode_ne_null hsolid a, hwrites⟩,
      rest.encode_writes hrest b hapart.2 hlater⟩
  | .defaulted name schema default rest, h, (a, b), hapart, members, hlookup => by
    obtain ⟨hname, hschema, hrest⟩ := Fields.wellFormed_defaulted.1 h
    by_cases hsilent : default.silent a = true
    · simp only [Fields.encode, hsilent, if_true] at hlookup
      obtain ⟨hown, hlater⟩ := Fields.lookup_omitted hname hlookup
      exact ⟨.inr ⟨hown, default.eq_of_silent a hsilent⟩,
        rest.encode_writes hrest b hapart.2 hlater⟩
    · simp only [Fields.encode, hsilent] at hlookup
      obtain ⟨hown, hlater⟩ := Fields.lookup_written hname hlookup
      exact ⟨.inl ⟨_, hown, schema.encode_writes hschema a hapart.1⟩,
        rest.encode_writes hrest b hapart.2 hlater⟩
end

/-! ## Sorted members -/

theorem Misses.canonical {names : List String} {j : Json} (h : Misses names j) :
    Misses names j.canonical := by
  obtain ⟨members, rfl, n, hn, hmissing⟩ := h
  refine ⟨_, canonical_obj members, n, hn, lookup_eq_none fun hmem => ?_⟩
  obtain ⟨m, hm, rfl⟩ := List.mem_map.1 hmem
  obtain ⟨k, hk, rfl⟩ := List.mem_map.1 (mem_collect hm)
  exact absurd (List.lookup_eq_none_iff.1 hmissing k hk) (by simp)

mutual
theorem Schema.writes_canonical {α : Type} : (schema : Schema α) → ∀ {a : α} {j : Json},
    schema.Writes a j → schema.Writes a j.canonical
  | .text, _, _, h => by
    obtain rfl := h
    rfl
  | .flag, _, _, h => by
    obtain rfl := h
    rfl
  | .any, _, j, h => (Value.ofJson_canonical j).trans h
  | .dict, _, _, ⟨members, rfl, _, hobject⟩ =>
    ⟨_, canonical_obj members, (sorted_collect _).nodup,
      (Object.ofMembers_sorted members).trans hobject⟩
  | .choice _, _, _, h => by
    obtain rfl := h
    rfl
  | .list item, as, j, h => by
    obtain ⟨items, rfl, hitems⟩ := h
    refine ⟨items.map Json.canonical, by rw [Json.canonical, canonicalItems_eq_map], ?_⟩
    rw [List.forall₂_map_right_iff]
    exact hitems.imp fun a j hwrites => item.writes_canonical hwrites
  | .record name fields, a, j, h => by
    obtain ⟨members, rfl, hnodup, hfields⟩ := h
    exact ⟨_, canonical_obj members, (sorted_collect _).nodup,
      fields.writes_sorted hfields (lookup_sorted hnodup)⟩
  | .shared name fields rest, (a, b), j, h => by
    obtain ⟨members, rfl, hnodup, hfields, hrest⟩ := h
    refine ⟨_, canonical_obj members, (sorted_collect _).nodup,
      fields.writes_sorted hfields (lookup_sorted hnodup), ?_⟩
    rw [foreign_sorted, ← canonical_obj]
    exact rest.writes_canonical hrest
  | .either _ first _, .inl _, _, h => first.writes_canonical h
  | .either _ _ second, .inr b, j, h => by
    obtain ⟨hsecond, hmisses⟩ := h
    exact ⟨second.writes_canonical hsecond, hmisses.canonical⟩
  | .via _ _ schema, _, _, h => schema.writes_canonical h

theorem Fields.writes_sorted {α : Type} : (fields : Fields α) → ∀ {a : α}
    {members sorted : List (String × Json)}, fields.Writes a members →
      (∀ n, sorted.lookup n = (members.lookup n).map Json.canonical) → fields.Writes a sorted
  | .done, _, _, _, _, _ => trivial
  | .required name schema rest, (a, b), members, sorted, h, hsorted => by
    obtain ⟨⟨j, hj, hown⟩, hrest⟩ := h
    exact ⟨⟨j.canonical, by rw [hsorted, hj, Option.map_some], schema.writes_canonical hown⟩,
      rest.writes_sorted hrest hsorted⟩
  | .optional name schema rest, (none, b), members, sorted, h, hsorted => by
    obtain ⟨hmissing, hrest⟩ := h
    exact ⟨by rw [hsorted, hmissing, Option.map_none], rest.writes_sorted hrest hsorted⟩
  | .optional name schema rest, (some a, b), members, sorted, h, hsorted => by
    obtain ⟨⟨j, hj, hnull, hown⟩, hrest⟩ := h
    exact ⟨⟨j.canonical, by rw [hsorted, hj, Option.map_some], canonical_ne_null hnull,
      schema.writes_canonical hown⟩, rest.writes_sorted hrest hsorted⟩
  | .defaulted name schema default rest, (a, b), members, sorted, h, hsorted => by
    obtain ⟨hown, hrest⟩ := h
    refine ⟨?_, rest.writes_sorted hrest hsorted⟩
    rcases hown with ⟨j, hj, hown⟩ | ⟨hmissing, hdefault⟩
    · exact .inl ⟨j.canonical, by rw [hsorted, hj, Option.map_some], schema.writes_canonical hown⟩
    · exact .inr ⟨by rw [hsorted, hmissing, Option.map_none], hdefault⟩
end

/-! ## Numbers of an encoding -/

mutual
theorem Schema.integral_encode {α : Type} : (schema : Schema α) → (a : α) → schema.Plain a →
    Integral (schema.encode a)
  | .text, _, _ | .flag, _, _ | .choice _, _, _ => trivial
  | .any, _, h | .dict, _, h => h
  | .list item, as, h => integralItems_iff.2 fun j hj => by
    obtain ⟨a, ha, rfl⟩ := List.mem_map.1 hj
    exact item.integral_encode a (h a ha)
  | .record _ fields, a, h => fields.integral_encode a h
  | .shared _ fields rest, (a, b), h => integralMembers_iff.2 fun m hm => by
    have hfields := fields.integral_encode a h.1
    have hrest := rest.integral_encode b h.2.1
    rcases List.mem_append.1 hm with hm | hm
    · exact integralMembers_iff.1 hfields m hm
    · cases hencode : rest.encode b <;> simp only [hencode, membersOf] at hm hrest
      case obj members => exact integralMembers_iff.1 hrest m hm
      all_goals simp at hm
  | .either _ first _, .inl a, h => first.integral_encode a h
  | .either _ _ second, .inr b, h => second.integral_encode b h
  | .via write _ schema, a, h => schema.integral_encode (write a) h

theorem Fields.integral_encode {α : Type} : (fields : Fields α) → (a : α) → fields.Plain a →
    IntegralMembers (fields.encode a)
  | .done, _, _ => trivial
  | .required _ schema rest, (a, b), h =>
    ⟨schema.integral_encode a h.1, rest.integral_encode b h.2⟩
  | .optional _ _ rest, (none, b), h => rest.integral_encode b h.2
  | .optional _ schema rest, (some a, b), h =>
    ⟨schema.integral_encode a (h.1 a rfl), rest.integral_encode b h.2⟩
  | .defaulted _ schema default rest, (a, b), h => by
    simp only [Fields.encode]
    split
    · exact rest.integral_encode b h.2
    · exact ⟨schema.integral_encode a h.1, rest.integral_encode b h.2⟩
end

end ServiceBroker.Wire
