import ServiceBroker.Proofs.Wire.Reading

/-!
# Repeated names

What an object denotes keeps the last member of a name, so it no longer shows that a name repeats.
Reading the object as it is written does: a tree is read as what it denotes, unless it names a field
or a word twice, and then it is not read at all. Where alternatives are tried, a repetition may rule
out one of them and leave the other; there the two ways of reading agree on trees without one.
-/
namespace ServiceBroker
namespace Json

mutual
/-- No object of the tree repeats a name. -/
def Distinct : Json → Prop
  | .arr items => DistinctItems items
  | .obj members => (members.map Prod.fst).Nodup ∧ DistinctMembers members
  | .null | .bool _ | .num _ | .str _ => True

def DistinctItems : List Json → Prop
  | [] => True
  | j :: js => j.Distinct ∧ DistinctItems js

def DistinctMembers : List (String × Json) → Prop
  | [] => True
  | (_, j) :: ms => j.Distinct ∧ DistinctMembers ms
end

theorem distinctItems_iff {items : List Json} : DistinctItems items ↔ ∀ j ∈ items, j.Distinct := by
  induction items with
  | nil => simp [DistinctItems]
  | cons j items ih => simp [DistinctItems, ih]

theorem distinctMembers_iff {members : List (String × Json)} :
    DistinctMembers members ↔ ∀ m ∈ members, m.2.Distinct := by
  induction members with
  | nil => simp [DistinctMembers]
  | cons m members ih => simp [DistinctMembers, ih]

end Json

namespace Wire
open Json

mutual
/-- Whether there are alternatives among which a document may be read. -/
def Schema.branches {α : Type} : Schema α → Bool
  | .text | .flag | .any | .dict | .choice _ => false
  | .list item => item.branches
  | .record _ fields => fields.branches
  | .shared _ fields rest => fields.branches || rest.branches
  | .either .. => true
  | .via _ _ schema => schema.branches

def Fields.branches {α : Type} : Fields α → Bool
  | .done => false
  | .required _ schema rest | .optional _ schema rest | .defaulted _ schema _ rest =>
    schema.branches || rest.branches
end

mutual
/-- No object that is read as a record names one of its fields twice, and none that is read as a
word names it twice. -/
def Schema.Unrepeated {α : Type} : Schema α → Json → Prop
  | .text, _ | .flag, _ | .any, _ | .dict, _ => True
  | .choice _, j =>
    match j with
    | .obj members => (members.map Prod.fst).Nodup
    | _ => True
  | .list item, j =>
    match j with
    | .arr items => ∀ k ∈ items, item.Unrepeated k
    | _ => True
  | .record _ fields, j =>
    match j with
    | .obj members => Once fields.names members ∧ fields.Unrepeated (fields.slots members)
    | .arr items => fields.Unrepeated (items.map some)
    | _ => True
  | .shared _ fields rest, j =>
    match j with
    | .obj members => Once fields.names members ∧ fields.Unrepeated (fields.slots members) ∧
        rest.Unrepeated (.obj (foreign fields.names members))
    | _ => True
  | .either _ first second, j =>
    match first.decode .value (.ofJson j) with
    | .ok _ => first.Unrepeated j
    | .error _ => second.Unrepeated j
  | .via _ _ schema, j => schema.Unrepeated j

/-- Nor is there such an object in the slots of fields. -/
def Fields.Unrepeated {α : Type} : Fields α → List (Option Json) → Prop
  | .done, _ => True
  | .required _ schema rest, slots | .optional _ schema rest, slots
  | .defaulted _ schema _ rest, slots =>
    (∀ j ∈ first? slots, schema.Unrepeated j) ∧ rest.Unrepeated slots.tail
end

/-! ## Trees without repetition -/

theorem distinct_of_mem_slots {α : Type} {members : List (String × Json)} (fields : Fields α)
    (h : DistinctMembers members) {j : Json} (hj : some j ∈ fields.slots members) : j.Distinct := by
  obtain ⟨n, -, hlookup⟩ := List.mem_map.1 hj
  exact distinctMembers_iff.1 h _ (mem_of_lookup hlookup)

theorem distinct_foreign {members : List (String × Json)} (h : (Json.obj members).Distinct)
    (names : List String) : (Json.obj (foreign names members)).Distinct := by
  have hsub : (foreign names members).Sublist members := List.filter_sublist
  exact ⟨h.1.sublist (hsub.map Prod.fst),
    distinctMembers_iff.2 fun m hm => distinctMembers_iff.1 h.2 m (hsub.subset hm)⟩

theorem mem_of_first? {slots : List (Option Json)} {j : Json} (h : first? slots = some j) :
    some j ∈ slots := by
  cases slots with
  | nil => exact nomatch h
  | cons slot slots =>
    rw [first?_cons] at h
    simp [h]

mutual
theorem Schema.unrepeated_of_distinct {α : Type} : (schema : Schema α) → ∀ {j : Json},
    j.Distinct → schema.Unrepeated j
  | .text, _, _ | .flag, _, _ | .any, _, _ | .dict, _, _ => trivial
  | .choice _, j, h => by
    cases j with
    | obj members => exact h.1
    | _ => trivial
  | .list item, j, h => by
    cases j with
    | arr items => exact fun k hk => item.unrepeated_of_distinct (distinctItems_iff.1 h k hk)
    | _ => trivial
  | .record _ fields, j, h => by
    cases j with
    | obj members =>
      exact ⟨Once.of_nodup h.1 _,
        fields.unrepeated_of_distinct fun _ => distinct_of_mem_slots fields h.2⟩
    | arr items =>
      exact fields.unrepeated_of_distinct fun j hj => distinctItems_iff.1 h j (by simpa using hj)
    | _ => trivial
  | .shared _ fields rest, j, h => by
    cases j with
    | obj members =>
      exact ⟨Once.of_nodup h.1 _,
        fields.unrepeated_of_distinct fun _ => distinct_of_mem_slots fields h.2,
        rest.unrepeated_of_distinct (distinct_foreign h _)⟩
    | _ => trivial
  | .either _ first second, j, h => by
    simp only [Schema.Unrepeated]
    split
    · exact first.unrepeated_of_distinct h
    · exact second.unrepeated_of_distinct h
  | .via _ _ schema, _, h => schema.unrepeated_of_distinct h

theorem Fields.unrepeated_of_distinct {α : Type} : (fields : Fields α) →
    ∀ {slots : List (Option Json)}, (∀ j, some j ∈ slots → j.Distinct) → fields.Unrepeated slots
  | .done, _, _ => trivial
  | .required _ schema rest, _, h | .optional _ schema rest, _, h
  | .defaulted _ schema _ rest, _, h =>
    ⟨fun j hj => schema.unrepeated_of_distinct (h j (mem_of_first? hj)),
      rest.unrepeated_of_distinct fun j hj => h j (List.mem_of_mem_tail hj)⟩
end

/-! ## What is read repeats nothing -/

theorem of_mapM_eq_some {α β : Type} {f : α → Option β} {as : List α} {bs : List β}
    (h : as.mapM f = some bs) : ∀ a ∈ as, ∃ b, f a = some b := by
  induction as generalizing bs with
  | nil => simp
  | cons a as ih =>
    rw [List.mapM_cons] at h
    obtain ⟨b, hb, h⟩ := Option.bind_eq_some_iff.1 h
    obtain ⟨bs, hbs, -⟩ := Option.bind_eq_some_iff.1 h
    exact List.forall_mem_cons.2 ⟨⟨b, hb⟩, ih hbs⟩

mutual
theorem Schema.unrepeated_of_read? {α : Type} : (schema : Schema α) → ∀ {j : Json} {a : α},
    schema.read? j = some a → schema.Unrepeated j
  | .text, _, _, _ | .flag, _, _, _ | .any, _, _, _ | .dict, _, _, _ => trivial
  | .choice v, j, a, h => by
    cases j with
    | obj members =>
      match members, h with
      | [m], _ => simp [Schema.Unrepeated]
    | _ => trivial
  | .list item, j, a, h => by
    cases j with
    | arr items =>
      intro k hk
      obtain ⟨b, hb⟩ := of_mapM_eq_some h k hk
      exact item.unrepeated_of_read? hb
    | _ => trivial
  | .record _ fields, j, a, h => by
    cases j with
    | obj members =>
      obtain ⟨honce, hfill⟩ := Option.ite_none_right_eq_some.1 h
      exact ⟨honce, fields.unrepeated_of_fill? hfill⟩
    | arr items => exact fields.unrepeated_of_fill? h
    | _ => trivial
  | .shared _ fields rest, j, a, h => by
    cases j with
    | obj members =>
      obtain ⟨honce, h⟩ := Option.ite_none_right_eq_some.1 h
      obtain ⟨b, hfill, h⟩ := Option.bind_eq_some_iff.1 h
      obtain ⟨c, hrest, -⟩ := Option.bind_eq_some_iff.1 h
      exact ⟨honce, fields.unrepeated_of_fill? hfill, rest.unrepeated_of_read? hrest⟩
    | _ => trivial
  | .either _ first second, j, a, h => by
    have hfirst := first.toOption_decode (m := .value) (Room.holds_unlimited j.depth)
    simp only [Schema.Unrepeated]
    split
    · next b heq =>
      rw [heq] at hfirst
      exact first.unrepeated_of_read? hfirst.symm
    · next e heq =>
      rw [heq] at hfirst
      rw [Schema.read?, ← hfirst] at h
      obtain ⟨b, hsecond, -⟩ := Option.map_eq_some_iff.1 h
      exact second.unrepeated_of_read? hsecond
  | .via _ _ schema, j, a, h => by
    obtain ⟨b, hread, -⟩ := Option.map_eq_some_iff.1 h
    exact schema.unrepeated_of_read? hread

theorem Fields.unrepeated_of_fill? {α : Type} : (fields : Fields α) →
    ∀ {slots : List (Option Json)} {a : α}, fields.fill? slots = some a → fields.Unrepeated slots
  | .done, _, _, _ => trivial
  | .required _ schema rest, slots, a, h => by
    obtain ⟨b, hown, h⟩ := Option.bind_eq_some_iff.1 h
    obtain ⟨c, hrest, -⟩ := Option.bind_eq_some_iff.1 h
    refine ⟨?_, rest.unrepeated_of_fill? hrest⟩
    intro j hj
    rw [Option.mem_def.1 hj] at hown
    exact schema.unrepeated_of_read? hown
  | .optional _ schema rest, slots, a, h => by
    obtain ⟨b, hown, h⟩ := Option.bind_eq_some_iff.1 h
    obtain ⟨c, hrest, -⟩ := Option.bind_eq_some_iff.1 h
    refine ⟨?_, rest.unrepeated_of_fill? hrest⟩
    intro j hj
    rw [Option.mem_def.1 hj] at hown
    cases j with
    | null => exact schema.unrepeated_of_distinct trivial
    | _ =>
      obtain ⟨c, hread, -⟩ := Option.map_eq_some_iff.1 hown
      exact schema.unrepeated_of_read? hread
  | .defaulted _ schema default rest, slots, a, h => by
    obtain ⟨b, hown, h⟩ := Option.bind_eq_some_iff.1 h
    obtain ⟨c, hrest, -⟩ := Option.bind_eq_some_iff.1 h
    refine ⟨?_, rest.unrepeated_of_fill? hrest⟩
    intro j hj
    rw [Option.mem_def.1 hj] at hown
    exact schema.unrepeated_of_read? hown
end

/-! ## What does not repeat is read as what it denotes -/

theorem mapM_congr {α β : Type} {f g : α → Option β} {as : List α} (h : ∀ a ∈ as, f a = g a) :
    as.mapM f = as.mapM g := by
  induction as with
  | nil => rfl
  | cons a as ih =>
    obtain ⟨ha, has⟩ := List.forall_mem_cons.1 h
    rw [List.mapM_cons, List.mapM_cons, ha, ih has]

theorem Vocabulary.read?_canonical {α : Type} (v : Vocabulary α) {members : List (String × Json)}
    (h : (members.map Prod.fst).Nodup) :
    v.read? (Json.obj members).canonical = v.read? (.obj members) := by
  rw [canonical_obj]
  rcases members with _ | ⟨⟨word, content⟩, _ | ⟨second, members⟩⟩
  · rfl
  · cases content <;> rfl
  · -- Several members stay several, so neither side is a word.
    have hperm := collect_perm (by rwa [names_mapMembers] : ((mapMembers Json.canonical
      ((word, content) :: second :: members)).map Prod.fst).Nodup)
    generalize collect _ = sorted at hperm ⊢
    match sorted, hperm.length_eq with
    | _ :: _ :: _, _ => rfl

theorem nullable?_canonical {α : Type} {read? : Json → Option α} {j : Json}
    (h : read? j.canonical = read? j) : nullable? read? j.canonical = nullable? read? j := by
  cases j <;> first | rfl | exact congrArg (some <$> ·) h

/-- What is read from the first slot is the same if what stands there is. -/
theorem elim_first?_canonical {β : Type} {slots : List (Option Json)} {read? : Json → Option β}
    (missing : Option β) (h : ∀ j ∈ first? slots, read? j.canonical = read? j) :
    (first? (slots.map (Option.map Json.canonical))).elim missing read? =
      (first? slots).elim missing read? := by
  rcases slots with _ | ⟨_ | j, slots⟩
  · rfl
  · rfl
  · exact h j rfl

theorem Fields.slots_sorted {α : Type} {fields : Fields α} {members : List (String × Json)}
    (h : Once fields.names members) :
    fields.slots (collect (mapMembers Json.canonical members)) =
      (fields.slots members).map (Option.map Json.canonical) := by
  rw [slots, slots, List.map_map]
  exact List.map_congr_left fun n hn => lookup_sorted_of_count (h n hn)

theorem distinct_slots {own later : Bool} {slots : List (Option Json)}
    (h : own || later → ∀ j, some j ∈ slots → j.Distinct) :
    (∀ j ∈ first? slots, own → j.Distinct) ∧ (later → ∀ j, some j ∈ slots.tail → j.Distinct) :=
  ⟨fun j hj hown => h (by simp [hown]) j (mem_of_first? hj),
    fun hlater j hj => h (by simp [hlater]) j (List.mem_of_mem_tail hj)⟩

mutual
theorem Schema.read?_canonical {α : Type} : (schema : Schema α) → ∀ {j : Json},
    (schema.branches → j.Distinct) → schema.Unrepeated j →
      schema.read? j.canonical = schema.read? j
  | .text, j, _, _ | .flag, j, _, _ => by cases j <;> rfl
  | .any, j, _, _ => congrArg some (Value.ofJson_canonical j)
  | .dict, j, _, _ => by
    cases j with
    | obj members =>
      rw [canonical_obj]
      exact congrArg some (Object.ofMembers_sorted members)
    | _ => rfl
  | .choice v, j, _, h => by
    cases j with
    | obj members => exact v.read?_canonical h
    | _ => rfl
  | .list item, j, hdistinct, h => by
    cases j with
    | arr items =>
      rw [Json.canonical, canonicalItems_eq_map]
      refine List.mapM_map.trans (mapM_congr fun k hk => ?_)
      exact item.read?_canonical (fun hbranch => distinctItems_iff.1 (hdistinct hbranch) k hk)
        (h k hk)
    | _ => rfl
  | .record _ fields, j, hdistinct, h => by
    cases j with
    | obj members =>
      obtain ⟨honce, hfields⟩ := h
      have hsorted := Once.of_nodup (sorted_collect (mapMembers Json.canonical members)).nodup
        fields.names
      rw [canonical_obj, Schema.read?, Schema.read?, if_pos hsorted, if_pos honce,
        Fields.slots_sorted honce]
      exact fields.fill?_canonical
        (fun hbranch _ hj => distinct_of_mem_slots fields (hdistinct hbranch).2 hj) hfields
    | arr items =>
      have hitems : (items.map Json.canonical).map some =
          (items.map some).map (Option.map Json.canonical) := by simp
      rw [Json.canonical, canonicalItems_eq_map, Schema.read?, Schema.read?, hitems]
      exact fields.fill?_canonical
        (fun hbranch k hk => distinctItems_iff.1 (hdistinct hbranch) k (by simpa using hk)) h
    | _ => rfl
  | .shared _ fields rest, j, hdistinct, h => by
    cases j with
    | obj members =>
      obtain ⟨honce, hfields, hrest⟩ := h
      have hsorted := Once.of_nodup (sorted_collect (mapMembers Json.canonical members)).nodup
        fields.names
      have hfree : fields.branches || rest.branches → (Json.obj members).Distinct := hdistinct
      have hown := fields.fill?_canonical
        (fun hbranch _ hj => distinct_of_mem_slots fields (hfree (by simp [hbranch])).2 hj) hfields
      have hother := rest.read?_canonical
        (fun hbranch => distinct_foreign (hfree (by simp [hbranch])) fields.names) hrest
      rw [canonical_obj, Schema.read?, Schema.read?, if_pos hsorted, if_pos honce,
        Fields.slots_sorted honce, hown, foreign_sorted, ← canonical_obj, hother]
    | _ => rfl
  | .either _ first second, j, hdistinct, _ => by
    have h : j.Distinct := hdistinct rfl
    have hfirst := first.read?_canonical (fun _ => h) (first.unrepeated_of_distinct h)
    have hsecond := second.read?_canonical (fun _ => h) (second.unrepeated_of_distinct h)
    rw [Schema.read?, Schema.read?, hfirst, hsecond]
  | .via _ read schema, j, hdistinct, h =>
    congrArg (read <$> ·) (schema.read?_canonical hdistinct h)

theorem Fields.fill?_canonical {α : Type} : (fields : Fields α) →
    ∀ {slots : List (Option Json)}, (fields.branches → ∀ j, some j ∈ slots → j.Distinct) →
      fields.Unrepeated slots →
        fields.fill? (slots.map (Option.map Json.canonical)) = fields.fill? slots
  | .done, slots, _, _ => by cases slots <;> rfl
  | .required _ schema rest, slots, hdistinct, h => by
    obtain ⟨hown, hrest⟩ := h
    obtain ⟨hfirst, htail⟩ := distinct_slots hdistinct
    have hslot := elim_first?_canonical none fun j hj =>
      schema.read?_canonical (hfirst j hj) (hown j hj)
    rw [Fields.fill?, Fields.fill?, hslot, ← List.map_tail, rest.fill?_canonical htail hrest]
  | .optional _ schema rest, slots, hdistinct, h => by
    obtain ⟨hown, hrest⟩ := h
    obtain ⟨hfirst, htail⟩ := distinct_slots hdistinct
    have hslot := elim_first?_canonical (some none) fun j hj =>
      nullable?_canonical (schema.read?_canonical (hfirst j hj) (hown j hj))
    rw [Fields.fill?, Fields.fill?, hslot, ← List.map_tail, rest.fill?_canonical htail hrest]
  | .defaulted _ schema default rest, slots, hdistinct, h => by
    obtain ⟨hown, hrest⟩ := h
    obtain ⟨hfirst, htail⟩ := distinct_slots hdistinct
    have hslot := elim_first?_canonical (some default.value) fun j hj =>
      schema.read?_canonical (hfirst j hj) (hown j hj)
    rw [Fields.fill?, Fields.fill?, hslot, ← List.map_tail, rest.fill?_canonical htail hrest]
end

/-! ## A document and what it denotes -/

variable {α : Type} {m : Medium} {j : Json} {a : α}

/-- Without alternatives, a document is read as what it denotes, and only if it repeats no name that
is read. -/
theorem Schema.decode_eq_ok_iff {schema : Schema α} (hbranches : schema.branches = false)
    (hroom : m.room.Holds j.depth) : schema.decode m (Document.ofJson j) = .ok a ↔
      schema.decode .value (Document.ofJson j.canonical) = .ok a ∧ schema.Unrepeated j := by
  have hvalue := schema.toOption_decode (m := .value) (Room.holds_unlimited j.canonical.depth)
  have hsame : schema.Unrepeated j → schema.read? j.canonical = schema.read? j :=
    schema.read?_canonical (by simp [hbranches])
  rw [eq_ok_iff, eq_ok_iff, schema.toOption_decode hroom, hvalue]
  constructor
  · intro h
    have hunrepeated := schema.unrepeated_of_read? h
    exact ⟨(hsame hunrepeated).trans h, hunrepeated⟩
  · rintro ⟨h, hunrepeated⟩
    exact (hsame hunrepeated).symm.trans h

/-- A document without repetition is read as what it denotes. -/
theorem Schema.decode_eq_ok_iff_of_distinct {schema : Schema α} (h : j.Distinct)
    (hroom : m.room.Holds j.depth) : schema.decode m (Document.ofJson j) = .ok a ↔
      schema.decode .value (Document.ofJson j.canonical) = .ok a := by
  have hvalue := schema.toOption_decode (m := .value) (Room.holds_unlimited j.canonical.depth)
  rw [eq_ok_iff, eq_ok_iff, schema.toOption_decode hroom, hvalue,
    schema.read?_canonical (fun _ => h) (schema.unrepeated_of_distinct h)]

theorem Schema.unrepeated_of_decode {schema : Schema α} (hroom : m.room.Holds j.depth)
    (h : schema.decode m (Document.ofJson j) = .ok a) : schema.Unrepeated j :=
  schema.unrepeated_of_read? ((schema.toOption_decode hroom).symm.trans (eq_ok_iff.1 h))

end Wire
end ServiceBroker
