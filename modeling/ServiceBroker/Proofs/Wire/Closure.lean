import ServiceBroker.Proofs.Wire.Encoding

/-!
# What reading makes

A member that is named like a field is read as the field. So what is read has no free-form member of
such a name, whatever the document is and whatever is wrong with the parts of it that are passed
over; and when it is written, nothing of it is lost.
-/
namespace ServiceBroker.Wire
open Json

/-- Whether the values are free-form maps. -/
def Schema.isDict {α : Type} : Schema α → Bool
  | .dict => true
  | _ => false

mutual
/-- What is written of what was read is what it was read from. What shares an object with fields is
a free-form map, or a record with names of its own. -/
@[simp]
def Schema.Faithful {α : Type} : Schema α → Prop
  | .text | .flag | .any | .dict | .choice _ => True
  | .list item => item.Faithful
  | .record _ fields => fields.Faithful
  | .shared _ fields rest => fields.Faithful ∧ rest.Faithful ∧ (rest.isDict ∨ rest.names?.isSome)
  | .either _ first second => first.Faithful ∧ second.Faithful
  | .via write read schema => (∀ b, write (read b) = b) ∧ schema.Faithful

@[simp]
def Fields.Faithful {α : Type} : Fields α → Prop
  | .done => True
  | .required _ schema rest => schema.Faithful ∧ rest.Faithful
  | .optional _ schema rest => schema.Faithful ∧ rest.Faithful
  | .defaulted _ schema default rest =>
    schema.Faithful ∧ schema.Apart default.value ∧ rest.Faithful
end

section

variable {α β : Type} {name : String} {rest : Fields β}

@[simp]
theorem Fields.faithful_label : (label name rest).Faithful ↔ rest.Faithful := by
  simp [label, Schema.Apart]

@[simp]
theorem Fields.faithful_switch {default : Bool} :
    (switch name default rest).Faithful ↔ rest.Faithful := by
  simp [switch, Schema.Apart]

@[simp]
theorem Fields.faithful_freeForm : (freeForm name rest).Faithful ↔ rest.Faithful := by
  simp [freeForm, Schema.Apart]

@[simp]
theorem Fields.faithful_items {item : Schema α} :
    (items name item rest).Faithful ↔ item.Faithful ∧ rest.Faithful := by
  simp [items, Schema.Apart, Default.emptyList]

end

/-! ## Parts of what is read -/

theorem ofReading_eq_ok {α : Type} {x : Except Fault α} {a : α} :
    ofReading x = .ok a ↔ x = .ok a := by
  cases x <;> simp [ofReading]

theorem map_eq_ok {ε α β : Type} {f : α → β} {x : Except ε α} {b : β} :
    f <$> x = .ok b ↔ ∃ a, x = .ok a ∧ f a = b := by
  cases x with
  | error e => exact ⟨nofun, nofun⟩
  | ok a => exact ⟨fun h => ⟨a, rfl, Except.ok.inj h⟩, fun ⟨_, rfl, h⟩ => congrArg _ h⟩

theorem pair_eq_ok {ε α β : Type} {x : Except ε α} {y : Except ε β} {a : α} {b : β} :
    (do
      let a ← x
      let b ← y
      return (a, b)) = .ok (a, b) ↔ x = .ok a ∧ y = .ok b := by
  constructor
  · intro h
    obtain ⟨c, hx, h⟩ := bind_eq_ok.1 h
    obtain ⟨d, hy, h⟩ := bind_eq_ok.1 h
    cases h
    exact ⟨hx, hy⟩
  · rintro ⟨rfl, rfl⟩
    rfl

/-- Each item that is read is read from one of the list. -/
theorem exists_of_mem_mapM {ε α β : Type} {f : α → Except ε β} {as : List α} {bs : List β}
    (h : as.mapM f = .ok bs) {b : β} (hb : b ∈ bs) : ∃ a ∈ as, f a = .ok b := by
  induction as generalizing bs with
  | nil =>
    cases h
    simp at hb
  | cons a as ih =>
    rw [List.mapM_cons] at h
    obtain ⟨c, hc, h⟩ := bind_eq_ok.1 h
    obtain ⟨cs, hcs, h⟩ := bind_eq_ok.1 h
    cases h
    rcases List.mem_cons.1 hb with rfl | hb
    · exact ⟨a, by simp, hc⟩
    · obtain ⟨x, hx, hread⟩ := ih hcs hb
      exact ⟨x, by simp [hx], hread⟩

theorem decode_of_nullable {α : Type} {decode : Document → Except DecodeError α} {d : Document}
    {o : Option α} (h : nullable decode d = .ok o) : ∀ a ∈ o, decode d = .ok a := by
  intro a ha
  unfold nullable at h
  split at h
  · cases h
    simp at ha
  · exact nomatch h
  · obtain ⟨b, hb, rfl⟩ := map_eq_ok.1 h
    cases ha
    exact hb

/-- Of the members that are left for a shared object, none is named like a field. -/
theorem not_mem_of_takeMembers {names : List String} {members : List (MemberName × Document)}
    {room : Room} {js : List (String × Json)}
    (h : Document.takeMembers room (others names members) = .ok js) :
    ∀ n ∈ js.map Prod.fst, n ∉ names := by
  induction members generalizing js with
  | nil =>
    cases h
    simp
  | cons m members ih =>
    obtain ⟨name, d⟩ := m
    cases name with
    | error fault => exact nomatch h
    | ok n =>
      by_cases hn : n ∈ names
      · have hdrop : others names ((.ok n, d) :: members) = others names members := by
          simp [others, hn]
        exact ih (hdrop ▸ h)
      · have hkeep : others names ((.ok n, d) :: members) =
            (.ok n, d) :: others names members := by simp [others, hn]
        rw [hkeep] at h
        obtain ⟨_, hname, h⟩ := bind_eq_ok.1 h
        obtain ⟨j, -, h⟩ := bind_eq_ok.1 h
        obtain ⟨ks, hks, h⟩ := bind_eq_ok.1 h
        cases h
        cases hname
        exact List.forall_mem_cons.2 ⟨hn, ih hks⟩

/-- A free-form map has the names of the object that it is read from. -/
theorem Schema.names_of_isDict {α : Type} {schema : Schema α} (hdict : schema.isDict)
    {members : List (String × Json)} {a : α}
    (h : schema.decode .value (Document.ofJson (.obj members)) = .ok a) :
    ∀ x ∈ membersOf (schema.encode a), x.1 ∈ members.map Prod.fst := by
  cases schema with
  | dict =>
    have htake := Document.takeMembers_ofMembers members (Room.holds_unlimited _)
    simp only [Schema.decode, Document.ofJson, Medium.enter, Medium.room, htake, ofReading, ok_bind]
      at h
    cases h
    intro x hx
    obtain ⟨y, hy, rfl⟩ := List.mem_map.1 hx
    obtain ⟨z, hz, rfl⟩ := List.mem_map.1 (mem_collect hy)
    exact List.mem_map.2 ⟨z, hz, rfl⟩
  | _ => simp [isDict] at hdict

/-! ## What is read is named apart -/

mutual
/-- Whatever is read, no free-form member in it is named like a field beside it. -/
theorem Schema.apart_of_decode {α : Type} : (schema : Schema α) → schema.Faithful →
    ∀ {m : Medium} {d : Document} {a : α}, schema.decode m d = .ok a → schema.Apart a
  | .text, _, _, _, _, _ | .flag, _, _, _, _, _ | .any, _, _, _, _, _ | .dict, _, _, _, _, _
  | .choice _, _, _, _, _, _ => trivial
  | .list item, hfaithful, m, d, as, h => by
    cases d with
    | arr items ending =>
      obtain ⟨inner, -, h⟩ := bind_eq_ok.1 h
      obtain ⟨bs, hitems, h⟩ := bind_eq_ok.1 h
      obtain ⟨_, -, h⟩ := bind_eq_ok.1 h
      cases h
      intro a ha
      obtain ⟨d, -, hread⟩ := exists_of_mem_mapM hitems ha
      exact item.apart_of_decode hfaithful hread
    | _ => exact nomatch h
  | .record name fields, hfaithful, m, d, a, h => by
    cases d with
    | obj members ending =>
      obtain ⟨inner, -, h⟩ := bind_eq_ok.1 h
      obtain ⟨_, -, h⟩ := bind_eq_ok.1 h
      obtain ⟨_, -, hbuild⟩ := bind_eq_ok.1 h
      exact fields.apart_of_build hfaithful hbuild
    | arr items ending =>
      obtain ⟨inner, -, hbuild⟩ := bind_eq_ok.1 h
      exact fields.apart_of_positional hfaithful hbuild
    | _ => exact nomatch h
  | .shared name fields rest, hfaithful, m, d, _, h => by
    obtain ⟨hfields, hrest, hnames⟩ := hfaithful
    cases d with
    | obj members ending =>
      obtain ⟨inner, -, h⟩ := bind_eq_ok.1 h
      obtain ⟨_, -, h⟩ := bind_eq_ok.1 h
      obtain ⟨_, -, h⟩ := bind_eq_ok.1 h
      obtain ⟨a, hbuild, h⟩ := bind_eq_ok.1 h
      obtain ⟨js, htake, h⟩ := bind_eq_ok.1 h
      obtain ⟨b, hread, h⟩ := bind_eq_ok.1 h
      cases h
      refine ⟨fields.apart_of_build hfields hbuild, rest.apart_of_decode hrest hread, ?_⟩
      -- A map that shares the object is read from the members that no field has taken.
      intro hfree x hx
      have hdict : rest.isDict := by simpa [hfree] using hnames
      have hforeign := not_mem_of_takeMembers (ofReading_eq_ok.1 htake)
      exact hforeign x.1 (Schema.names_of_isDict hdict hread x hx)
    | _ => exact nomatch h
  | .either name first second, hfaithful, m, d, _, h => by
    obtain ⟨j, -, h⟩ := bind_eq_ok.1 h
    cases hfirst : first.decode .value (Document.ofJson j) with
    | ok a =>
      simp only [hfirst] at h
      cases h
      exact first.apart_of_decode hfaithful.1 hfirst
    | error e =>
      cases hsecond : second.decode .value (Document.ofJson j) with
      | ok b =>
        simp only [hfirst, hsecond] at h
        cases h
        exact second.apart_of_decode hfaithful.2 hsecond
      | error e' =>
        simp only [hfirst, hsecond] at h
        exact nomatch h
  | .via write read schema, hfaithful, m, d, _, h => by
    obtain ⟨b, hread, rfl⟩ := map_eq_ok.1 h
    rw [Schema.Apart, hfaithful.1]
    exact schema.apart_of_decode hfaithful.2 hread

theorem Fields.apart_of_build {α : Type} : (fields : Fields α) → fields.Faithful →
    ∀ {m : Medium} {members : List (MemberName × Document)} {a : α},
      fields.build m members = .ok a → fields.Apart a
  | .done, _, _, _, _, _ => trivial
  | .required name schema rest, hfaithful, m, members, (a, b), h => by
    simp only [Fields.build] at h
    split at h
    · obtain ⟨hown, hrest⟩ := pair_eq_ok.1 h
      exact ⟨schema.apart_of_decode hfaithful.1 hown, rest.apart_of_build hfaithful.2 hrest⟩
    · exact nomatch h
  | .optional name schema rest, hfaithful, m, members, (o, b), h => by
    simp only [Fields.build] at h
    split at h
    · obtain ⟨hown, hrest⟩ := pair_eq_ok.1 h
      refine ⟨?_, rest.apart_of_build hfaithful.2 hrest⟩
      intro a ha
      exact schema.apart_of_decode hfaithful.1 (decode_of_nullable hown a ha)
    · obtain ⟨hmissing, hrest⟩ := pair_eq_ok.1 h
      cases hmissing
      exact ⟨nofun, rest.apart_of_build hfaithful.2 hrest⟩
  | .defaulted name schema default rest, hfaithful, m, members, (a, b), h => by
    simp only [Fields.build] at h
    split at h
    · obtain ⟨hown, hrest⟩ := pair_eq_ok.1 h
      exact ⟨schema.apart_of_decode hfaithful.1 hown, rest.apart_of_build hfaithful.2.2 hrest⟩
    · obtain ⟨hmissing, hrest⟩ := pair_eq_ok.1 h
      cases hmissing
      exact ⟨hfaithful.2.1, rest.apart_of_build hfaithful.2.2 hrest⟩

theorem Fields.apart_of_positional {α : Type} : (fields : Fields α) → fields.Faithful →
    ∀ {m : Medium} {record : String} {size length index : Nat} {items : List Document}
      {ending : ArrayEnd} {a : α},
      fields.positional m record size length index items ending = .ok a → fields.Apart a
  | .done, _, _, _, _, _, _, _, _, _, _ => trivial
  | .required _ schema rest, hfaithful, _, _, _, _, _, [], _, _, h => by
    obtain ⟨_, -, h⟩ := bind_eq_ok.1 h
    exact nomatch h
  | .required _ schema rest, hfaithful, _, _, _, _, _, d :: ds, _, (a, b), h => by
    obtain ⟨hown, hrest⟩ := pair_eq_ok.1 h
    exact ⟨schema.apart_of_decode hfaithful.1 hown, rest.apart_of_positional hfaithful.2 hrest⟩
  | .optional _ schema rest, hfaithful, _, _, _, _, _, [], _, _, h => by
    obtain ⟨_, -, h⟩ := bind_eq_ok.1 h
    obtain ⟨b, hrest, h⟩ := bind_eq_ok.1 h
    cases h
    exact ⟨nofun, rest.apart_of_positional hfaithful.2 hrest⟩
  | .optional _ schema rest, hfaithful, _, _, _, _, _, d :: ds, _, (o, b), h => by
    obtain ⟨hown, hrest⟩ := pair_eq_ok.1 h
    refine ⟨?_, rest.apart_of_positional hfaithful.2 hrest⟩
    intro a ha
    exact schema.apart_of_decode hfaithful.1 (decode_of_nullable hown a ha)
  | .defaulted _ schema default rest, hfaithful, _, _, _, _, _, [], _, _, h => by
    obtain ⟨_, -, h⟩ := bind_eq_ok.1 h
    obtain ⟨b, hrest, h⟩ := bind_eq_ok.1 h
    cases h
    exact ⟨hfaithful.2.1, rest.apart_of_positional hfaithful.2.2 hrest⟩
  | .defaulted _ schema default rest, hfaithful, _, _, _, _, _, d :: ds, _, (a, b), h => by
    obtain ⟨hown, hrest⟩ := pair_eq_ok.1 h
    exact ⟨schema.apart_of_decode hfaithful.1 hown,
      rest.apart_of_positional hfaithful.2.2 hrest⟩
end

/-! ## What is read is written in full -/

/-- What is read has nothing in it that would not be written. -/
theorem Schema.erase_of_decode {α : Type} {erase : α → α} {schema : Schema α}
    (hexact : schema.ExactUpTo erase) (hfaithful : schema.Faithful) {m : Medium} {d : Document}
    {a : α} (h : schema.decode m d = .ok a) : erase a = a := by
  cases schema with
  | via write read schema =>
    obtain ⟨b, -, rfl⟩ := map_eq_ok.1 h
    calc erase (read b)
      _ = read (write (read b)) := (hexact.1 _).symm
      _ = read b := by rw [hfaithful.1]
  | _ => exact hexact.1 a

/-- An object that is read names none of the fields twice. -/
theorem Schema.once_of_decode {α β : Type} {name : String} {fields : Fields α} {rest : Schema β}
    {m : Medium} {members : List (String × Json)} {x : α × β}
    (h : (shared name fields rest).decode m (Document.ofJson (.obj members)) = .ok x) :
    Once fields.names members := by
  obtain ⟨inner, -, h⟩ := bind_eq_ok.1 h
  obtain ⟨_, hvisit, -⟩ := bind_eq_ok.1 h
  intro n hn
  exact (once_of_visit (fun n hn => (fields.isSome_check? inner n).2 hn) hvisit n hn).1

end ServiceBroker.Wire
