import ServiceBroker.Proofs.Json.Canonical
import ServiceBroker.Proofs.Json.Faultless
import ServiceBroker.Wire.Decode

/-!
# Reading by name

`Schema.read?` reads a tree without going through it in order: what stands for a field is looked up
by its name, and no field may be named more than once. It accepts what `Schema.decode` does, from a
text and from a value alike, as long as there is room for the nesting.
-/
namespace ServiceBroker.Wire
open Json

/-- The members whose names are not among some. -/
def foreign {α : Type} (names : List String) (members : List (String × α)) :
    List (String × α) :=
  filterNames (fun n => !names.contains n) members

theorem foreign_sorted (names : List String) (members : List (String × Json)) :
    foreign names (collect (mapMembers Json.canonical members)) =
      collect (mapMembers Json.canonical (foreign names members)) := by
  rw [foreign, filterNames_collect, filterNames_mapMembers, foreign]

theorem lookup_foreign {names : List String} {members : List (String × Json)} {n : String}
    (h : n ∉ names) : (foreign names members).lookup n = members.lookup n :=
  lookup_filterNames _ (by simpa using h)

/-- No member but one has any of the names. -/
def Once {α : Type} (names : List String) (members : List (String × α)) : Prop :=
  ∀ n ∈ names, (members.map Prod.fst).count n ≤ 1

instance {α : Type} (names : List String) (members : List (String × α)) :
    Decidable (Once names members) :=
  inferInstanceAs (Decidable (∀ n ∈ names, (members.map Prod.fst).count n ≤ 1))

theorem Once.of_nodup {α : Type} {members : List (String × α)}
    (h : (members.map Prod.fst).Nodup) (names : List String) : Once names members :=
  fun n _ => List.nodup_iff_count_le_one.1 h n

def nothing? : Json → Option Unit
  | .null => some ()
  | _ => none

def Vocabulary.read? {α : Type} (v : Vocabulary α) : Json → Option α
  | .str s => v.ofWord? s
  | .obj [(word, content)] => do
    let a ← v.ofWord? word
    nothing? content
    return a
  | _ => none

def nullable? {α : Type} (read? : Json → Option α) : Json → Option (Option α)
  | .null => some none
  | j => some <$> read? j

theorem nothing?_of_ne_null {j : Json} (h : j ≠ .null) : nothing? j = none := by
  cases j <;> simp_all [nothing?]

theorem nullable?_of_ne_null {α : Type} {read? : Json → Option α} {j : Json} (h : j ≠ .null) :
    nullable? read? j = some <$> read? j := by
  cases j <;> simp_all [nullable?]

/-- What stands in the first one of some slots. -/
def first? (slots : List (Option Json)) : Option Json := slots.head?.join

@[simp]
theorem first?_cons (slot : Option Json) (slots : List (Option Json)) :
    first? (slot :: slots) = slot := by
  cases slot <;> rfl

namespace Fields

/-- What stands for each field in an object. -/
def slots {α : Type} (fields : Fields α) (members : List (String × Json)) : List (Option Json) :=
  fields.names.map (members.lookup ·)

variable {α β : Type} (name : String) (schema : Schema α) (rest : Fields β)
  (members : List (String × Json))

@[simp]
theorem slots_required : (required name schema rest).slots members =
    members.lookup name :: rest.slots members := rfl

@[simp]
theorem slots_optional : (optional name schema rest).slots members =
    members.lookup name :: rest.slots members := rfl

@[simp]
theorem slots_defaulted (default : Default α) : (defaulted name schema default rest).slots members =
    members.lookup name :: rest.slots members := rfl

end Fields

mutual
def Schema.read? {α : Type} : Schema α → Json → Option α
  | .text, j =>
    match j with
    | .str s => some s
    | _ => none
  | .flag, j =>
    match j with
    | .bool b => some b
    | _ => none
  | .any, j => some (Value.ofJson j)
  | .dict, j =>
    match j with
    | .obj members => some (Object.ofMembers members)
    | _ => none
  | .choice v, j => v.read? j
  | .list item, j =>
    match j with
    | .arr items => items.mapM item.read?
    | _ => none
  | .record _ fields, j =>
    match j with
    | .obj members =>
      if Once fields.names members then fields.fill? (fields.slots members) else none
    | .arr items => fields.fill? (items.map some)
    | _ => none
  | .shared _ fields rest, j =>
    match j with
    | .obj members =>
      if Once fields.names members then do
        let a ← fields.fill? (fields.slots members)
        let b ← rest.read? (.obj (foreign fields.names members))
        return (a, b)
      else none
    | _ => none
  | .either _ first second, j => (Sum.inl <$> first.read? j) <|> (Sum.inr <$> second.read? j)
  | .via _ read schema, j => read <$> schema.read? j

/-- Takes the fields from their slots, of which those at the end may be left out. -/
def Fields.fill? {α : Type} : Fields α → List (Option Json) → Option α
  | .done, slots => if slots.isEmpty then some () else none
  | .required _ schema rest, slots => do
    let a ← (first? slots).elim none schema.read?
    let b ← rest.fill? slots.tail
    return (a, b)
  | .optional _ schema rest, slots => do
    let a ← (first? slots).elim (some none) (nullable? schema.read?)
    let b ← rest.fill? slots.tail
    return (a, b)
  | .defaulted _ schema default rest, slots => do
    let a ← (first? slots).elim (some default.value) schema.read?
    let b ← rest.fill? slots.tail
    return (a, b)
end

/-- A tree that is read through another type stands for what is written as that type. -/
theorem Schema.read?_via_iff {α β : Type} {write : α → β} {read : β → α} {schema : Schema β}
    (hwrite : ∀ b, write (read b) = b) {j : Json} {a : α} :
    (via write read schema).read? j = some a ↔
      schema.read? j = some (write a) ∧ read (write a) = a := by
  rw [read?, Option.map_eq_map, Option.map_eq_some_iff]
  constructor
  · rintro ⟨b, hb, rfl⟩
    rw [hwrite]
    exact ⟨hb, rfl⟩
  · rintro ⟨hb, ha⟩
    exact ⟨_, hb, ha⟩

theorem pair_eq_some {α β : Type} {x : Option α} {y : Option β} {a : α} {b : β} :
    (do
      let a ← x
      let b ← y
      return (a, b)) = some (a, b) ↔ x = some a ∧ y = some b := by
  cases x <;> cases y <;> simp

namespace Fields

variable {α β : Type} {name : String} {schema : Schema α} {rest : Fields β} {slot : Option Json}
  {slots : List (Option Json)} {b : β}

theorem fill?_required {a : α} :
    (required name schema rest).fill? (slot :: slots) = some (a, b) ↔
      slot.elim none schema.read? = some a ∧ rest.fill? slots = some b := by
  rw [fill?, first?_cons, List.tail_cons, pair_eq_some]

theorem fill?_optional {o : Option α} :
    (optional name schema rest).fill? (slot :: slots) = some (o, b) ↔
      slot.elim (some none) (nullable? schema.read?) = some o ∧ rest.fill? slots = some b := by
  rw [fill?, first?_cons, List.tail_cons, pair_eq_some]

theorem fill?_defaulted {default : Default α} {a : α} :
    (defaulted name schema default rest).fill? (slot :: slots) = some (a, b) ↔
      slot.elim (some default.value) schema.read? = some a ∧ rest.fill? slots = some b := by
  rw [fill?, first?_cons, List.tail_cons, pair_eq_some]

end Fields

/-! ## Results without their errors -/

section

variable {ε α β : Type}

theorem eq_ok_iff {x : Except ε α} {a : α} : x = .ok a ↔ x.toOption = some a := by
  cases x <;> simp [Except.toOption]

@[simp]
theorem toOption_ok (a : α) : (Except.ok a : Except ε α).toOption = some a := rfl

@[simp]
theorem toOption_pure (a : α) : (pure a : Except ε α).toOption = some a := rfl

@[simp]
theorem toOption_error (e : ε) : (Except.error e : Except ε α).toOption = none := rfl

@[simp]
theorem toOption_throw (e : ε) : (throw e : Except ε α).toOption = none := rfl

@[simp]
theorem toOption_bind (x : Except ε α) (f : α → Except ε β) :
    (x >>= f).toOption = x.toOption >>= fun a => (f a).toOption := by
  cases x <;> rfl

@[simp]
theorem toOption_map (f : α → β) (x : Except ε α) : (f <$> x).toOption = f <$> x.toOption := by
  cases x <;> rfl

end

/-! ## Parts of a document -/

/-- A container that there is room for can be entered. -/
theorem Medium.enter_of_holds {m : Medium} {d : Nat} (h : m.room.Holds (d + 1)) :
    ∃ inner : Medium, m.enter = .ok inner ∧ inner.room.Holds d := by
  cases m with
  | value => exact ⟨.value, rfl, Room.holds_unlimited d⟩
  | text n =>
    have hn := h n rfl
    cases n with
    | zero => omega
    | succ n => exact ⟨.text n, rfl, fun k hk => by cases hk; omega⟩

/-- Documents as the members of an object. -/
def named (members : List (String × Document)) : List (MemberName × Document) :=
  members.map fun m => (.ok m.1, m.2)

theorem named_cons (m : String × Document) (members : List (String × Document)) :
    named (m :: members) = (.ok m.1, m.2) :: named members := rfl

theorem memberNamed?_named (name : String) (members : List (String × Document)) :
    memberNamed? name (named members) = members.lookup name := by
  induction members with
  | nil => rfl
  | cons m members ih =>
    rw [named_cons, memberNamed?, ih, lookup_cons]
    by_cases h : m.1 = name
    · simp [h]
    · simp [h, Ne.symm h]

theorem ofMembers_eq_named (members : List (String × Json)) :
    Document.ofMembers members = named (mapMembers Document.ofJson members) := by
  induction members with
  | nil => rfl
  | cons m members ih =>
    rw [Document.ofMembers, ih]
    rfl

theorem memberNamed?_ofMembers (name : String) (members : List (String × Json)) :
    memberNamed? name (Document.ofMembers members) =
      (members.lookup name).map Document.ofJson := by
  rw [ofMembers_eq_named, memberNamed?_named, lookup_mapMembers]

theorem others_ofMembers (names : List String) (members : List (String × Json)) :
    others names (Document.ofMembers members) = Document.ofMembers (foreign names members) := by
  induction members with
  | nil => rfl
  | cons m members ih =>
    obtain ⟨n, j⟩ := m
    simp only [Document.ofMembers, others, foreign, filterNames_cons, List.filter_cons] at ih ⊢
    rw [ih]
    split <;> rfl

theorem depthMembers_foreign_le (names : List String) (members : List (String × Json)) :
    depthMembers (foreign names members) ≤ depthMembers members := by
  induction members with
  | nil => exact Nat.le_refl _
  | cons m members ih =>
    rw [foreign, filterNames_cons]
    rw [foreign] at ih
    split
    · simp only [depthMembers]
      omega
    · exact Nat.le_trans ih (Nat.le_max_right _ _)

@[simp]
theorem ofReading_takeCheck : ofReading ObjectEnd.closed.takeCheck = .ok () := rfl

@[simp]
theorem ofReading_check : ofReading ArrayEnd.closed.check = .ok () := rfl

@[simp]
theorem Vocabulary.toOption_named {α : Type} (v : Vocabulary α) (word : String) :
    (v.named word).toOption = v.ofWord? word := by
  unfold named
  split <;> simp [*]

@[simp]
theorem toOption_nothing (content : Json) :
    (nothing (Document.ofJson content)).toOption = nothing? content := by
  cases content <;> rfl

theorem Vocabulary.toOption_decode {α : Type} (v : Vocabulary α) {m : Medium} {j : Json}
    (hroom : m.room.Holds j.depth) :
    (v.decode m (Document.ofJson j)).toOption = v.read? j := by
  cases j with
  | str s => cases m <;> exact v.toOption_named s
  | obj members =>
    obtain ⟨inner, henter, -⟩ := Medium.enter_of_holds hroom
    rcases members with _ | ⟨⟨word, content⟩, _ | ⟨⟨second, more⟩, members⟩⟩ <;> cases m <;>
      simp [decode, decodeText, decodeValue, Document.ofJson, Document.ofMembers, henter, ofReading,
        nothingMore, ObjectEnd.takeCheck, read?, -bind_pure_comp]
  | _ => cases m <;> rfl

theorem toOption_nullable {α : Type} {decode : Document → Except DecodeError α}
    {read? : Json → Option α} {j : Json} (h : (decode (Document.ofJson j)).toOption = read? j) :
    (nullable decode (Document.ofJson j)).toOption = nullable? read? j := by
  cases j <;> first | rfl | exact (toOption_map ..).trans (congrArg _ h)

theorem toOption_mapM {α : Type} {decode : Document → Except DecodeError α}
    {read? : Json → Option α} {items : List Json}
    (h : ∀ j ∈ items, (decode (Document.ofJson j)).toOption = read? j) :
    ((Document.ofItems items).mapM decode).toOption = items.mapM read? := by
  induction items with
  | nil => rfl
  | cons j items ih =>
    obtain ⟨hj, hitems⟩ := List.forall_mem_cons.1 h
    simp only [Document.ofItems, List.mapM_cons, toOption_bind, hj, ih hitems]
    rfl

/-! ## Members of a record -/

namespace Fields

variable {α β : Type} (name : String) (schema : Schema α) (rest : Fields β) (m : Medium)
  (members : List (MemberName × Document))

theorem build_required : (required name schema rest).build m members = (do
    let a ← (memberNamed? name members).elim (.error (.shape (.missingField name)))
      (schema.decode m)
    let b ← rest.build m members
    return (a, b)) := by
  rw [build]
  cases memberNamed? name members <;> rfl

theorem build_optional : (optional name schema rest).build m members = (do
    let a ← (memberNamed? name members).elim (.ok none) (nullable (schema.decode m))
    let b ← rest.build m members
    return (a, b)) := by
  rw [build]
  cases memberNamed? name members <;> rfl

theorem build_defaulted (default : Default α) :
    (defaulted name schema default rest).build m members = (do
      let a ← (memberNamed? name members).elim (.ok default.value) (schema.decode m)
      let b ← rest.build m members
      return (a, b)) := by
  rw [build]
  cases memberNamed? name members <;> rfl

end Fields

/-- Where all members pass, none that is known repeats. -/
theorem once_of_visit {known : String → Option (Document → Except DecodeError Unit)}
    {other : Document → Except Fault Unit} {names : List String}
    (hnames : ∀ n ∈ names, (known n).isSome) {members : List (String × Json)}
    {seen : List String} (h : visit known other seen (Document.ofMembers members) = .ok ()) :
    ∀ n ∈ names, (members.map Prod.fst).count n ≤ 1 ∧
      (n ∈ seen → (members.map Prod.fst).count n = 0) := by
  induction members generalizing seen with
  | nil => simp
  | cons m members ih =>
    obtain ⟨k, j⟩ := m
    intro n hn
    simp only [Document.ofMembers, visit, ofReading, ok_bind] at h
    rw [List.map_cons, List.count_cons]
    cases hk : known k with
    | none =>
      simp only [hk] at h
      obtain ⟨_, -, h⟩ := bind_eq_ok.1 h
      have hne : k ≠ n := fun heq => by simpa [← heq, hk] using hnames n hn
      have hlater := ih h n hn
      grind
    | some check =>
      simp only [hk] at h
      split at h
      · exact nomatch h
      · next hseen =>
        obtain ⟨_, -, h⟩ := bind_eq_ok.1 h
        have hlater := ih h n hn
        grind

theorem Fields.isSome_check? {α : Type} : (fields : Fields α) → (m : Medium) → (n : String) →
    ((fields.check? m n).isSome ↔ n ∈ fields.names)
  | .done, _, n => by simp [check?, names]
  | .required name _ rest, m, n | .optional name _ rest, m, n
  | .defaulted name _ _ rest, m, n => by
    have hrest := rest.isSome_check? m n
    simp only [check?, names, List.mem_cons]
    split <;> simp_all

/-- A field and those behind it are checked by name. -/
theorem check_of_ite {n name : String} {own check : Document → Except DecodeError Unit}
    {later : Option (Document → Except DecodeError Unit)} {d : Document}
    (h : (if n = name then some own else later) = some check) (hown : n = name → own d = .ok ())
    (hlater : later = some check → check d = .ok ()) : check d = .ok () := by
  by_cases hname : n = name
  · rw [if_pos hname] at h
    cases h
    exact hown hname
  · rw [if_neg hname] at h
    exact hlater h

/-- What the fields are taken from passes its check. -/
theorem Fields.check_of_build {α : Type} : (fields : Fields α) → ∀ {m : Medium}
    {members : List (MemberName × Document)} {a : α}, fields.build m members = .ok a →
    ∀ n d, memberNamed? n members = some d →
      ∀ check, fields.check? m n = some check → check d = .ok ()
  | .done, _, _, _, _ => fun _ _ _ _ h => nomatch h
  | .required name schema rest, m, members, _, h
  | .optional name schema rest, m, members, _, h
  | .defaulted name schema _ rest, m, members, _, h => by
    intro n d hd check hfound
    simp only [build] at h
    have hrest : ∃ b, rest.build m members = .ok b := by
      split at h <;> grind [bind_eq_ok]
    obtain ⟨b, hrest⟩ := hrest
    refine check_of_ite hfound ?_ (rest.check_of_build hrest n d hd check)
    rintro rfl
    simp only [hd] at h
    obtain ⟨a, hown, -⟩ := bind_eq_ok.1 h
    simp only [hown]
    rfl

/-- Members pass if none that is known repeats and each of them passes. -/
theorem visit_of_once {known : String → Option (Document → Except DecodeError Unit)}
    {other : Document → Except Fault Unit} {members : List (String × Document)}
    (honce : ∀ n, (known n).isSome → (members.map Prod.fst).count n ≤ 1)
    (hknown : ∀ m ∈ members, ∀ check, known m.1 = some check → check m.2 = .ok ())
    (hother : ∀ m ∈ members, known m.1 = none → other m.2 = .ok ()) {seen : List String}
    (hseen : ∀ m ∈ members, m.1 ∉ seen) : visit known other seen (named members) = .ok () := by
  induction members generalizing seen with
  | nil => rfl
  | cons m members ih =>
    obtain ⟨n, d⟩ := m
    obtain ⟨hd, hlater⟩ := List.forall_mem_cons.1 hknown
    obtain ⟨hdOther, hlaterOther⟩ := List.forall_mem_cons.1 hother
    obtain ⟨hdSeen, hlaterSeen⟩ := List.forall_mem_cons.1 hseen
    simp only [List.map_cons, List.count_cons] at honce
    have hlaterOnce : ∀ k, (known k).isSome → (members.map Prod.fst).count k ≤ 1 := fun k hk => by
      have hcount := honce k hk
      omega
    simp only [named_cons, visit, ofReading, ok_bind]
    cases hcheck : known n with
    | none =>
      simp only [hdOther hcheck, ok_bind]
      exact ih hlaterOnce hlater hlaterOther hlaterSeen
    | some check =>
      have hnotSeen : seen.contains n = false := by simpa using hdSeen
      simp only [hnotSeen, hd check hcheck]
      refine ih hlaterOnce hlater hlaterOther fun m hm => ?_
      have hmem : m.1 ∈ members.map Prod.fst := List.mem_map_of_mem hm
      have hcount := honce n (by simp [hcheck])
      have hpos := List.count_pos_iff.2 hmem
      have hnotSeen : m.1 ∉ seen := hlaterSeen m hm
      grind

/-- Members that fields are taken from pass if no field is named twice. -/
theorem Fields.visit_of_build {α : Type} {fields : Fields α} {m : Medium}
    {other : Document → Except Fault Unit} {members : List (String × Document)} {a : α}
    (hother : ∀ m ∈ members, m.1 ∉ fields.names → other m.2 = .ok ())
    (honce : Once fields.names members) (hbuild : fields.build m (named members) = .ok a) :
    visit (fields.check? m) other [] (named members) = .ok () := by
  refine visit_of_once (fun n hn => honce n ((fields.isSome_check? m n).1 hn)) ?_ ?_ (by simp)
  · intro x hx check hcheck
    have hcount := honce x.1 ((fields.isSome_check? m x.1).1 (by simp [hcheck]))
    refine fields.check_of_build hbuild x.1 x.2 ?_ check hcheck
    rw [memberNamed?_named, lookup_of_count hcount hx]
  · intro x hx hnone
    refine hother x hx fun hmem => ?_
    have hsome := (fields.isSome_check? m x.1).2 hmem
    rw [hnone] at hsome
    exact nomatch hsome

/-- Members of a tree that fields are taken from pass if no field is named twice. -/
theorem Fields.visit_of_build_tree {α : Type} {fields : Fields α} {m : Medium}
    {other : Document → Except Fault Unit} {members : List (String × Json)} {a : α}
    (hother : ∀ m ∈ members, other (Document.ofJson m.2) = .ok ())
    (honce : Once fields.names members)
    (hbuild : fields.build m (Document.ofMembers members) = .ok a) :
    visit (fields.check? m) other [] (Document.ofMembers members) = .ok () := by
  rw [ofMembers_eq_named] at hbuild ⊢
  refine visit_of_build ?_ ?_ hbuild
  · intro x hx _
    obtain ⟨y, hy, rfl⟩ := List.mem_map.1 hx
    exact hother y hy
  · simpa only [Once, names_mapMembers] using honce

/-- Where the fields are taken as well, the members pass exactly if no field is named twice. -/
theorem Fields.toOption_visit {α β : Type} (fields : Fields α) {m : Medium}
    {other : Document → Except Fault Unit} {members : List (String × Json)}
    (hother : ∀ m ∈ members, other (Document.ofJson m.2) = .ok ()) {later : Except DecodeError β}
    (hlater : ∀ b, later = .ok b → ∃ a, fields.build m (Document.ofMembers members) = .ok a) :
    (do
      visit (fields.check? m) other [] (Document.ofMembers members)
      later).toOption = if Once fields.names members then later.toOption else none := by
  cases hvisit : visit (fields.check? m) other [] (Document.ofMembers members) with
  | ok =>
    have honce : Once fields.names members := fun n hn =>
      (once_of_visit (fun n hn => (fields.isSome_check? m n).2 hn) hvisit n hn).1
    rw [if_pos honce, ok_bind]
  | error e =>
    split
    · next honce =>
      cases later with
      | ok b =>
        obtain ⟨a, hbuild⟩ := hlater b rfl
        exact nomatch hvisit.symm.trans (Fields.visit_of_build_tree hother honce hbuild)
      | error e => rfl
    · rfl

/-! ## Documents -/

mutual
/-- What is read from a document is what is read by name. -/
theorem Schema.toOption_decode {α : Type} : (schema : Schema α) → ∀ {m : Medium} {j : Json},
    m.room.Holds j.depth → (schema.decode m (Document.ofJson j)).toOption = schema.read? j
  | .text, _, j, _ => by cases j <;> rfl
  | .flag, _, j, _ => by cases j <;> rfl
  | .any, m, j, hroom => by
    simp only [Schema.decode, Document.take_ofJson j hroom, ofReading, ok_bind]
    rfl
  | .dict, m, j, hroom => by
    cases j with
    | obj members =>
      obtain ⟨inner, henter, hinner⟩ := Medium.enter_of_holds hroom
      have htake := Document.takeMembers_ofMembers members hinner
      simp only [Schema.decode, Document.ofJson, henter, htake, ofReading, ok_bind]
      rfl
    | _ => rfl
  | .choice v, _, _, hroom => v.toOption_decode hroom
  | .list item, m, j, hroom => by
    cases j with
    | arr items =>
      obtain ⟨inner, henter, hinner⟩ := Medium.enter_of_holds hroom
      have hitems : ((Document.ofItems items).mapM (item.decode inner)).toOption =
          items.mapM item.read? :=
        toOption_mapM fun j hj => item.toOption_decode (hinner.mono (depth_le_depthItems hj))
      simp only [Schema.decode, Document.ofJson, henter, ok_bind, toOption_bind, hitems]
      exact bind_pure _
    | _ => rfl
  | .record name fields, m, j, hroom => by
    cases j with
    | obj members =>
      obtain ⟨inner, henter, hinner⟩ := Medium.enter_of_holds hroom
      have hvisit := fields.toOption_visit (m := inner)
        (fun m (_ : m ∈ members) => Document.skip_ofJson m.2) fun a h => ⟨a, h⟩
      rw [fields.toOption_build hinner] at hvisit
      simp only [Schema.decode, Document.ofJson, henter, ofReading_takeCheck, ok_bind]
      exact hvisit
    | arr items =>
      obtain ⟨inner, henter, hinner⟩ := Medium.enter_of_holds hroom
      simp only [Schema.decode, Document.ofJson, henter, ok_bind]
      exact fields.toOption_positional hinner ..
    | _ => rfl
  | .shared name fields rest, m, j, hroom => by
    cases j with
    | obj members =>
      obtain ⟨inner, henter, hinner⟩ := Medium.enter_of_holds hroom
      simp only [Schema.decode, Document.ofJson, henter, ofReading_takeCheck, ok_bind]
      refine (fields.toOption_visit ?_ ?_).trans ?_
      · intro x hx
        rw [Document.take_ofJson x.2 (hinner.mono (depth_le_depthMembers hx))]
        rfl
      · exact fun b h => (bind_eq_ok.1 h).imp fun _ h => h.1
      · -- The other value is read from the members that are left, as a tree and not as a text.
        have htake := Document.takeMembers_ofMembers (foreign fields.names members)
          (hinner.mono (depthMembers_foreign_le fields.names members))
        have hrest := rest.toOption_decode (m := .value)
          (Room.holds_unlimited (Json.obj (foreign fields.names members)).depth)
        simp only [others_ofMembers, htake, ofReading, ok_bind, toOption_bind, toOption_pure,
          fields.toOption_build hinner]
        simp only [Document.ofJson] at hrest
        simp only [hrest]
        rfl
    | _ => rfl
  | .either name first second, m, j, hroom => by
    have hfirst := first.toOption_decode (m := .value) (Room.holds_unlimited j.depth)
    have hsecond := second.toOption_decode (m := .value) (Room.holds_unlimited j.depth)
    simp only [Schema.decode, Document.take_ofJson j hroom, ofReading, ok_bind, Schema.read?,
      ← hfirst, ← hsecond]
    cases first.decode .value (Document.ofJson j) <;>
      cases second.decode .value (Document.ofJson j) <;> rfl
  | .via _ read schema, _, _, hroom => by
    rw [Schema.decode, toOption_map, schema.toOption_decode hroom, Schema.read?]

theorem Fields.toOption_build {α : Type} : (fields : Fields α) → ∀ {m : Medium}
    {members : List (String × Json)}, m.room.Holds (depthMembers members) →
    (fields.build m (Document.ofMembers members)).toOption = fields.fill? (fields.slots members)
  | .done, _, _, _ => rfl
  | .required name schema rest, m, members, hroom => by
    have hrest := rest.toOption_build hroom
    simp only [Fields.build, memberNamed?_ofMembers, Fields.fill?, Fields.slots_required,
      first?_cons, List.tail_cons]
    cases hj : members.lookup name with
    | none => rfl
    | some j =>
      have hown := schema.toOption_decode (hroom.mono (depth_le_depthMembers (mem_of_lookup hj)))
      simp only [Option.map_some, toOption_bind, hown, hrest]
      rfl
  | .optional name schema rest, m, members, hroom => by
    have hrest := rest.toOption_build hroom
    simp only [Fields.build, memberNamed?_ofMembers, Fields.fill?, Fields.slots_optional,
      first?_cons, List.tail_cons]
    cases hj : members.lookup name with
    | none =>
      simp only [Option.map_none, toOption_bind, hrest]
      rfl
    | some j =>
      have hown := toOption_nullable
        (schema.toOption_decode (hroom.mono (depth_le_depthMembers (mem_of_lookup hj))))
      simp only [Option.map_some, toOption_bind, hown, hrest]
      rfl
  | .defaulted name schema default rest, m, members, hroom => by
    have hrest := rest.toOption_build hroom
    simp only [Fields.build, memberNamed?_ofMembers, Fields.fill?, Fields.slots_defaulted,
      first?_cons, List.tail_cons]
    cases hj : members.lookup name with
    | none =>
      simp only [Option.map_none, toOption_bind, hrest]
      rfl
    | some j =>
      have hown := schema.toOption_decode (hroom.mono (depth_le_depthMembers (mem_of_lookup hj)))
      simp only [Option.map_some, toOption_bind, hown, hrest]
      rfl

theorem Fields.toOption_positional {α : Type} : (fields : Fields α) → ∀ {m : Medium}
    {items : List Json}, m.room.Holds (depthItems items) → ∀ record size length index,
    (fields.positional m record size length index (Document.ofItems items) .closed).toOption =
      fields.fill? (items.map some)
  | .done, m, items, _ => by cases m <;> cases items <;> exact fun _ _ _ _ => rfl
  | .required name schema rest, m, [], _ => fun _ _ _ _ => rfl
  | .required name schema rest, m, j :: items, hroom => by
    intro record size length index
    have hown := schema.toOption_decode (hroom.mono (Nat.le_max_left _ _))
    have hrest := rest.toOption_positional (hroom.mono (Nat.le_max_right _ _))
    simp only [Fields.positional, Document.ofItems, toOption_bind, hown, hrest]
    rfl
  | .optional name schema rest, m, [], hroom
  | .defaulted name schema default rest, m, [], hroom => by
    intro record size length index
    have hrest : (rest.positional m record size length (index + 1) [] .closed).toOption =
        rest.fill? [] := rest.toOption_positional hroom ..
    simp only [Fields.positional, Document.ofItems, ofReading_check, ok_bind, toOption_bind, hrest]
    rfl
  | .optional name schema rest, m, j :: items, hroom => by
    intro record size length index
    have hown := schema.toOption_decode (hroom.mono (Nat.le_max_left _ _))
    have hrest := rest.toOption_positional (hroom.mono (Nat.le_max_right _ _))
    simp only [Fields.positional, Document.ofItems, toOption_bind, toOption_nullable hown, hrest]
    rfl
  | .defaulted name schema default rest, m, j :: items, hroom => by
    intro record size length index
    have hown := schema.toOption_decode (hroom.mono (Nat.le_max_left _ _))
    have hrest := rest.toOption_positional (hroom.mono (Nat.le_max_right _ _))
    simp only [Fields.positional, Document.ofItems, toOption_bind, hown, hrest]
    rfl
end

end ServiceBroker.Wire
