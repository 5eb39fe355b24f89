import ServiceBroker.Proofs.Wire.Shapes
import ServiceBroker.Wire.Message

/-!
# What is wrong with an object

A table says of each member of a record what it stands for and what is wrong with it otherwise.
Taking the fields of a table from an object reports one problem at most: of the members that are
misshapen the one with the least name, else the first required member that is missing. Where nothing
is wrong, the fields are what the members stand for.
-/
namespace ServiceBroker.Wire
open Json

/-- The error of a result that is one. -/
def error? {ε α : Type} : Except ε α → Option ε
  | .error e => some e
  | .ok _ => none

/-! ## Tables -/

/-- What a member looks for. -/
structure Member where
  name : String
  isRequired : Bool
  /-- What is wrong with what is given for the member. -/
  fault? : Json → Option DecodeError

/-- What is given under a name is wrong. -/
def Misshapen (table : List Member) (j : Json) (n : String) (e : DecodeError) : Prop :=
  ∃ m ∈ table, m.name = n ∧ ∃ k, j.member? n = some k ∧ m.fault? k = some e

/-- Of all that is wrong, this has the least name. Names are in the order of their characters, which
is the one of their UTF-8 bytes. -/
def LeastMisshapen (table : List Member) (j : Json) (e : DecodeError) : Prop :=
  ∃ n, Misshapen table j n e ∧ ∀ k e', Misshapen table j k e' → n ≤ k

def firstMissing? (table : List Member) (j : Json) : Option Member :=
  table.find? fun m => m.isRequired && (j.member? m.name).isNone

/-- What is wrong with an object that has to have the members of a table. -/
@[mk_iff]
inductive Flawed (table : List Member) (j : Json) : DecodeError → Prop
  | misshapen {e : DecodeError} (h : LeastMisshapen table j e) : Flawed table j e
  | missing {m : Member} (hshapes : ∀ n e, ¬ Misshapen table j n e)
    (h : firstMissing? table j = some m) : Flawed table j (.shape (.missingField m.name))

/-- What is reported of an object, in which the members of a later table share the object with those
of the own one. -/
@[mk_iff]
inductive Reported (own later : List Member) (j : Json) (e : DecodeError) : Prop
  | own (h : Flawed own j e) : Reported own later j e
  | later (hown : ∀ e, ¬ Flawed own j e) (h : Flawed later j e) : Reported own later j e

section

variable {table own later : List Member} {j k : Json} {e : DecodeError}

theorem misshapen_congr (h : ∀ m ∈ table, j.member? m.name = k.member? m.name) :
    Misshapen table j = Misshapen table k := by
  funext n e
  refine propext (exists_congr fun m => and_congr_right fun hm => and_congr_right ?_)
  rintro rfl
  rw [h m hm]

theorem firstMissing?_congr (h : ∀ m ∈ table, j.member? m.name = k.member? m.name) :
    firstMissing? table j = firstMissing? table k := by
  rw [firstMissing?, firstMissing?, ← List.head?_filter, ← List.head?_filter]
  exact congrArg List.head? (List.filter_congr fun m hm => by rw [h m hm])

/-- Only the members of the table matter. -/
theorem flawed_congr (h : ∀ m ∈ table, j.member? m.name = k.member? m.name) :
    Flawed table j e ↔ Flawed table k e := by
  rw [flawed_iff, flawed_iff, LeastMisshapen, LeastMisshapen, misshapen_congr h,
    firstMissing?_congr h]

theorem reported_congr (hown : ∀ m ∈ own, j.member? m.name = k.member? m.name)
    (hlater : ∀ m ∈ later, j.member? m.name = k.member? m.name) :
    Reported own later j e ↔ Reported own later k e := by
  simp only [reported_iff, flawed_congr hown, flawed_congr hlater]

end

/-- A type of member: the trees that stand for its values, and what is wrong with the others. -/
structure MemberType (α : Type) where
  shape : Shape α
  fault? : Json → Option DecodeError

namespace MemberType

def text : MemberType String :=
  ⟨.text, fun
    | .str _ => none
    | j => some (unexpected (.ofJson j) .text)⟩

def flag : MemberType Bool :=
  ⟨.flag, fun
    | .bool _ => none
    | j => some (unexpected (.ofJson j) .flag)⟩

def map : MemberType Object :=
  ⟨.dict, fun
    | .obj _ => none
    | j => some (unexpected (.ofJson j) .map)⟩

/-- A member that is a message of its own. -/
def message (α : Type) [Message α] : MemberType α :=
  ⟨fun j a => Message.ofJson j = .ok a, fun j => error? (Message.ofJson j : Except DecodeError α)⟩

end MemberType

/-- A member of a record, with what it says of the record. -/
structure Column (R : Type) extends Member where
  Holds : Option Json → R → Prop

namespace Column

variable {R α : Type} (name : String) (type : MemberType α)

def required (field : R → α) : Column R :=
  ⟨⟨name, true, type.fault?⟩, fun slot r => Given type.shape slot (field r)⟩

def optional (field : R → Option α) : Column R :=
  ⟨⟨name, false, fun
    | .null => none
    | j => type.fault? j⟩, fun slot r => Optional type.shape slot (field r)⟩

def defaulted (default : α) (field : R → α) : Column R :=
  ⟨⟨name, false, type.fault?⟩, fun slot r => Defaulted type.shape default slot (field r)⟩

end Column

/-! ## Tables of fields -/

/-- A schema reads the members of a type, from what a tree denotes. -/
structure Schema.Reads {α : Type} (schema : Schema α) (type : MemberType α) : Prop where
  fault : ∀ j : Json, error? (schema.decode .value (Document.ofJson j.canonical)) = type.fault? j
  shape : ∀ j a, schema.read? j.canonical = some a ↔ type.shape j a
  not_null : ∀ a, ¬ type.shape .null a

section

variable {α : Type} {schema : Schema α} {type : MemberType α} {j : Json}

theorem Schema.Reads.fault_of_canonical (h : schema.Reads type) (hj : j.canonical = j) :
    error? (schema.decode .value (Document.ofJson j)) = type.fault? j := by
  have hfault := h.fault j
  rwa [hj] at hfault

theorem Schema.Reads.shape_of_canonical (h : schema.Reads type) (hj : j.canonical = j) (a : α) :
    schema.read? j = some a ↔ type.shape j a := by
  have hshape := h.shape j a
  rwa [hj] at hshape

end

theorem Schema.reads_text : Schema.text.Reads .text where
  fault j := by cases j <;> rfl
  shape j a := by cases j <;> simp [Json.canonical, Schema.read?, MemberType.text, Shape.text]
  not_null := Shape.not_text_null

theorem Schema.reads_flag : Schema.flag.Reads .flag where
  fault j := by cases j <;> rfl
  shape j a := by cases j <;> simp [Json.canonical, Schema.read?, MemberType.flag, Shape.flag]
  not_null := nofun

theorem Schema.reads_dict : Schema.dict.Reads .map where
  fault j := by
    cases j with
    | obj members =>
      have htake := Document.takeMembers_ofMembers
        (collect (mapMembers Json.canonical members)) (Room.holds_unlimited _)
      rw [canonical_obj]
      simp only [decode, Document.ofJson, Medium.enter, Medium.room, htake, ofReading, ok_bind]
      rfl
    | _ => rfl
  shape j a := by
    cases j with
    | obj members =>
      rw [canonical_obj]
      simp [read?, MemberType.map, Shape.dict, Object.ofMembers_sorted, eq_comm]
    | _ => simp [Json.canonical, read?, MemberType.map, Shape.dict]
  not_null := by simp [MemberType.map, Shape.dict]

/-- The table lists the fields, with the members of a record that they are. -/
inductive Fields.Lists {R : Type} : {α : Type} → Fields α → (R → α) → List (Column R) → Prop
  | done {get : R → Unit} : Lists .done get []
  | required {α β : Type} {name : String} {schema : Schema α} {rest : Fields β} {get : R → α × β}
    {type : MemberType α} {columns : List (Column R)} (h : schema.Reads type)
    (hrest : rest.Lists (fun r => (get r).2) columns) :
    Lists (.required name schema rest) get (.required name type (fun r => (get r).1) :: columns)
  | optional {α β : Type} {name : String} {schema : Schema α} {rest : Fields β}
    {get : R → Option α × β} {type : MemberType α} {columns : List (Column R)}
    (h : schema.Reads type) (hrest : rest.Lists (fun r => (get r).2) columns) :
    Lists (.optional name schema rest) get (.optional name type (fun r => (get r).1) :: columns)
  | defaulted {α β : Type} {name : String} {schema : Schema α} {default : Default α}
    {rest : Fields β} {get : R → α × β} {type : MemberType α} {columns : List (Column R)}
    (h : schema.Reads type) (hrest : rest.Lists (fun r => (get r).2) columns) :
    Lists (.defaulted name schema default rest) get
      (.defaulted name type default.value (fun r => (get r).1) :: columns)

/-! ## Stages of reading -/

section

variable {α β ε : Type}

theorem error?_eq_some_iff {x : Except ε α} {e : ε} : error? x = some e ↔ x = .error e := by
  cases x <;> simp [error?]

theorem error?_map (f : α → β) (x : Except ε α) : error? (f <$> x) = error? x := by
  cases x <;> rfl

theorem error?_bind_unit (x : Except ε Unit) (y : Except ε α) :
    error? (do
      x
      y) = (error? x).or (error? y) := by
  cases x <;> rfl

theorem error?_pair (x : Except ε α) (y : Except ε β) :
    error? (do
      let a ← x
      let b ← y
      return (a, b)) = (error? x).or (error? y) := by
  cases x with
  | error e => rfl
  | ok a => cases y <;> rfl

end

/-- Null is never wrong where it may stand. -/
theorem Schema.Reads.fault_nullable {α R : Type} {schema : Schema α} {type : MemberType α}
    (h : schema.Reads type) {name : String} {field : R → Option α} {j : Json}
    (hj : j.canonical = j) : error? (nullable (schema.decode .value) (Document.ofJson j)) =
      (Column.optional name type field).fault? j := by
  have hfault := h.fault_of_canonical hj
  cases j with
  | null => rfl
  | _ => exact (error?_map _ _).trans hfault

/-- What is wrong with a member that is checked. -/
def Fields.flaw? {α : Type} (fields : Fields α) (n : String) (j : Json) : Option DecodeError :=
  (fields.check? .value n).bind fun check => error? (check (Document.ofJson j))

namespace Fields

variable {α β : Type} {name n : String} {schema : Schema α} {rest : Fields β} {j : Json}

theorem flaw?_required : (required name schema rest).flaw? n j =
    if n = name then error? (schema.decode .value (Document.ofJson j)) else rest.flaw? n j := by
  rw [flaw?, check?]
  split
  · exact error?_map _ _
  · rfl

theorem flaw?_optional : (optional name schema rest).flaw? n j =
    if n = name then error? (nullable (schema.decode .value) (Document.ofJson j))
    else rest.flaw? n j := by
  rw [flaw?, check?]
  split
  · exact error?_map _ _
  · rfl

theorem flaw?_defaulted {default : Default α} : (defaulted name schema default rest).flaw? n j =
    if n = name then error? (schema.decode .value (Document.ofJson j)) else rest.flaw? n j := by
  rw [flaw?, check?]
  split
  · exact error?_map _ _
  · rfl

end Fields

/-! ## What the table of some fields says -/

namespace Fields.Lists

section

variable {R : Type} {n : String} {j : Json} {e : DecodeError}

theorem map_name {α : Type} {fields : Fields α} {get : R → α} {columns : List (Column R)}
    (h : fields.Lists get columns) : columns.map (·.name) = fields.names := by
  induction h with
  | done => rfl
  | required _ _ ih | optional _ _ ih | defaulted _ _ ih => exact congrArg _ ih

/-- The first column of a name says what is wrong. -/
theorem exists_mem_cons_iff {name : String} {c : Column R} {columns : List (Column R)}
    {own later : Option DecodeError} (hc : c.name = name) (hname : name ∉ columns.map (·.name))
    (hown : own = c.fault? j)
    (hlater : later = some e ↔ ∃ c ∈ columns, c.name = n ∧ c.fault? j = some e) :
    (if n = name then own else later) = some e ↔
      ∃ x ∈ c :: columns, x.name = n ∧ x.fault? j = some e := by
  simp only [List.mem_cons, or_and_right, exists_or, exists_eq_left, hc]
  by_cases hn : n = name
  · subst hn
    have hmissing : ¬ ∃ x ∈ columns, x.name = n ∧ x.fault? j = some e := by
      rintro ⟨x, hx, hxname, -⟩
      exact hname (List.mem_map.2 ⟨x, hx, hxname⟩)
    simp [hown, hmissing]
  · have hne : name ≠ n := fun heq => hn heq.symm
    simp [hn, hne, hlater]

theorem flaw?_eq_some_iff {α : Type} {fields : Fields α} {get : R → α}
    {columns : List (Column R)} (h : fields.Lists get columns) (hnodup : fields.names.Nodup)
    (hj : j.canonical = j) :
    fields.flaw? n j = some e ↔ ∃ c ∈ columns, c.name = n ∧ c.fault? j = some e := by
  induction h with
  | done => simp [flaw?, check?]
  | required h hrest ih =>
    obtain ⟨hname, hlater⟩ := List.nodup_cons.1 hnodup
    rw [flaw?_required]
    exact exists_mem_cons_iff rfl (hrest.map_name ▸ hname) (h.fault_of_canonical hj) (ih hlater)
  | optional h hrest ih =>
    obtain ⟨hname, hlater⟩ := List.nodup_cons.1 hnodup
    rw [flaw?_optional]
    exact exists_mem_cons_iff rfl (hrest.map_name ▸ hname) (h.fault_nullable hj) (ih hlater)
  | defaulted h hrest ih =>
    obtain ⟨hname, hlater⟩ := List.nodup_cons.1 hnodup
    rw [flaw?_defaulted]
    exact exists_mem_cons_iff rfl (hrest.map_name ▸ hname) (h.fault_of_canonical hj) (ih hlater)

end

section

variable {R : Type} {ms : List (String × Json)}

/-- Where nothing that is given is wrong, the first required member that is missing is. -/
theorem error?_build {α : Type} {fields : Fields α} {get : R → α} {columns : List (Column R)}
    (h : fields.Lists get columns) (hcanonical : (Json.obj ms).Canonical)
    (hsound : ∀ c ∈ columns, ∀ j, ms.lookup c.name = some j → c.fault? j = none) :
    error? (fields.build .value (Document.ofMembers ms)) =
      (columns.find? fun c => c.isRequired && (ms.lookup c.name).isNone).map fun c =>
        .shape (.missingField c.name) := by
  induction h with
  | done => rfl
  | @required _ _ name schema rest _ type columns h hrest ih =>
    obtain ⟨hown, hlater⟩ := List.forall_mem_cons.1 hsound
    rw [build_required, error?_pair, memberNamed?_ofMembers, ih hlater]
    cases hj : ms.lookup name with
    | none => simp [Column.required, hj, error?]
    | some j =>
      have hfault := (h.fault_of_canonical (canonical_of_lookup hcanonical hj)).trans (hown j hj)
      simp [Column.required, hj, hfault]
  | @optional _ _ name schema rest _ type columns h hrest ih =>
    obtain ⟨hown, hlater⟩ := List.forall_mem_cons.1 hsound
    rw [build_optional, error?_pair, memberNamed?_ofMembers, ih hlater]
    cases hj : ms.lookup name with
    | none => simp [Column.optional, error?]
    | some j =>
      have hfault := (h.fault_nullable (canonical_of_lookup hcanonical hj)).trans (hown j hj)
      simp [Column.optional, hfault]
  | @defaulted _ _ name schema default rest _ type columns h hrest ih =>
    obtain ⟨hown, hlater⟩ := List.forall_mem_cons.1 hsound
    rw [build_defaulted, error?_pair, memberNamed?_ofMembers, ih hlater]
    cases hj : ms.lookup name with
    | none => simp [Column.defaulted, error?]
    | some j =>
      have hfault := (h.fault_of_canonical (canonical_of_lookup hcanonical hj)).trans (hown j hj)
      simp [Column.defaulted, hfault]

/-- The fields are taken from an object exactly as their columns say. -/
theorem fill?_eq_some_iff {α : Type} {fields : Fields α} {get : R → α} {columns : List (Column R)}
    (h : fields.Lists get columns) (hcanonical : (Json.obj ms).Canonical) (r : R) :
    fields.fill? (fields.slots ms) = some (get r) ↔
      ∀ c ∈ columns, c.Holds (ms.lookup c.name) r := by
  have hslot : ∀ {α : Type} {schema : Schema α} {type : MemberType α}, schema.Reads type →
      ∀ n, ∀ j ∈ ms.lookup n, ∀ a, schema.read? j = some a ↔ type.shape j a :=
    fun h n j hj => h.shape_of_canonical (canonical_of_lookup hcanonical hj)
  induction h with
  | done => simp [fill?, slots, names]
  | required h hrest ih =>
    refine Iff.trans ?_ List.forall_mem_cons.symm
    exact fill?_required.trans (and_congr (Schema.slot_required (hslot h _)) ih)
  | optional h hrest ih =>
    refine Iff.trans ?_ List.forall_mem_cons.symm
    exact fill?_optional.trans (and_congr (Schema.slot_optional (hslot h _) h.not_null) ih)
  | defaulted h hrest ih =>
    refine Iff.trans ?_ List.forall_mem_cons.symm
    exact fill?_defaulted.trans (and_congr (Schema.slot_defaulted (hslot h _)) ih)

end

end Fields.Lists

/-! ## The first of what is wrong -/

section

variable {ε : Type} {ms : List (String × Json)} {f : String → Json → Option ε}

/-- Of sorted members the first one that is wrong has the least name. -/
theorem findSome?_eq_some_iff_of_sorted (h : Sorted ms) {e : ε} :
    ms.findSome? (fun m => f m.1 m.2) = some e ↔
      ∃ n, (∃ j, ms.lookup n = some j ∧ f n j = some e) ∧
        ∀ k e', (∃ j, ms.lookup k = some j ∧ f k j = some e') → n ≤ k := by
  constructor
  · intro hfound
    obtain ⟨before, ⟨n, j⟩, later, rfl, hj, hbefore⟩ := List.findSome?_eq_some_iff.1 hfound
    obtain ⟨-, hlater, -⟩ := List.pairwise_append.1 h
    refine ⟨n, ⟨j, lookup_of_mem h.nodup (by simp), hj⟩, ?_⟩
    rintro k e' ⟨i, hi, hwrong⟩
    rcases List.mem_append.1 (mem_of_lookup hi) with hmem | hmem
    · exact nomatch (hbefore _ hmem).symm.trans hwrong
    · rcases List.mem_cons.1 hmem with heq | hmem
      · cases heq
        exact String.le_refl _
      · have hlt : n < k := List.rel_of_pairwise_cons hlater hmem
        exact String.not_lt.1 (String.lt_asymm hlt)
  · rintro ⟨n, ⟨j, hj, hwrong⟩, hleast⟩
    obtain ⟨before, later, rfl⟩ := List.append_of_mem (mem_of_lookup hj)
    refine List.findSome?_eq_some_iff.2 ⟨before, (n, j), later, rfl, hwrong, fun m hm => ?_⟩
    cases hm' : f m.1 m.2 with
    | none => rfl
    | some e' =>
      have hlt : m.1 < n := (List.pairwise_append.1 h).2.2 m hm _ (List.mem_cons_self ..)
      have hle : n ≤ m.1 :=
        hleast m.1 e' ⟨m.2, lookup_of_mem h.nodup (List.mem_append_left _ hm), hm'⟩
      exact absurd hlt (String.not_lt.2 hle)

theorem findSome?_eq_none_iff_of_nodup (h : (ms.map Prod.fst).Nodup) :
    ms.findSome? (fun m => f m.1 m.2) = none ↔
      ∀ n e, ¬ ∃ j, ms.lookup n = some j ∧ f n j = some e := by
  rw [List.findSome?_eq_none_iff]
  constructor
  · rintro hnone n e ⟨j, hj, hwrong⟩
    exact nomatch (hnone _ (mem_of_lookup hj)).symm.trans hwrong
  · intro hnone m hm
    refine Option.eq_none_iff_forall_ne_some.2 fun e hwrong => ?_
    exact hnone m.1 e ⟨m.2, lookup_of_mem h hm, hwrong⟩

end

/-- Going through members that do not repeat ends at the first one that is wrong. -/
theorem Fields.error?_visit {α : Type} {fields : Fields α} {other : Document → Except Fault Unit}
    {ms : List (String × Json)} (hnodup : (ms.map Prod.fst).Nodup)
    (hother : ∀ m ∈ ms, other (Document.ofJson m.2) = .ok ()) {seen : List String}
    (hseen : ∀ m ∈ ms, m.1 ∉ seen) :
    error? (visit (fields.check? .value) other seen (Document.ofMembers ms)) =
      ms.findSome? fun m => fields.flaw? m.1 m.2 := by
  induction ms generalizing seen with
  | nil => rfl
  | cons m ms ih =>
    obtain ⟨n, j⟩ := m
    obtain ⟨hn, hnodup⟩ := List.nodup_cons.1 hnodup
    obtain ⟨hj, hother⟩ := List.forall_mem_cons.1 hother
    obtain ⟨hnew, hseen⟩ := List.forall_mem_cons.1 hseen
    simp only [Document.ofMembers, visit, ofReading, ok_bind, List.findSome?_cons]
    cases hcheck : fields.check? .value n with
    | none =>
      have hflaw : fields.flaw? n j = none := by rw [flaw?, hcheck, Option.bind_none]
      simp only [hj, ok_bind, hflaw]
      exact ih hnodup hother hseen
    | some check =>
      have hflaw : fields.flaw? n j = error? (check (Document.ofJson j)) := by
        rw [flaw?, hcheck, Option.bind_some]
      have hnotSeen : seen.contains n = false := by simpa using hnew
      have hlater : ∀ m ∈ ms, m.1 ∉ n :: seen := by
        intro m hm hmem
        have hname : m.1 ∈ ms.map Prod.fst := List.mem_map_of_mem hm
        rcases List.mem_cons.1 hmem with heq | hmem
        · exact hn (heq ▸ hname)
        · exact hseen m hm hmem
      simp only [hnotSeen, hflaw]
      cases check (Document.ofJson j) with
      | error e => rfl
      | ok => exact ih hnodup hother hlater

/-- Goes through the members of an object and takes the fields from them. -/
def Fields.take {α : Type} (fields : Fields α) (other : Document → Except Fault Unit)
    (ms : List (String × Json)) : Except DecodeError α := do
  visit (fields.check? .value) other [] (Document.ofMembers ms)
  fields.build .value (Document.ofMembers ms)

namespace Fields.Lists

variable {α R : Type} {fields : Fields α} {get : R → α} {columns : List (Column R)}
  {ms : List (String × Json)}

theorem misshapen_iff (h : fields.Lists get columns) (hnames : fields.names.Nodup)
    (hcanonical : (Json.obj ms).Canonical) {n : String} {e : DecodeError} :
    Misshapen (columns.map (·.toMember)) (.obj ms) n e ↔
      ∃ j, ms.lookup n = some j ∧ fields.flaw? n j = some e := by
  constructor
  · rintro ⟨_, hm, rfl, j, hj, hfault⟩
    obtain ⟨c, hc, rfl⟩ := List.mem_map.1 hm
    exact ⟨j, hj, (h.flaw?_eq_some_iff hnames (canonical_of_lookup hcanonical hj)).2
      ⟨c, hc, rfl, hfault⟩⟩
  · rintro ⟨j, hj, hflaw⟩
    obtain ⟨c, hc, rfl, hfault⟩ :=
      (h.flaw?_eq_some_iff hnames (canonical_of_lookup hcanonical hj)).1 hflaw
    exact ⟨_, List.mem_map_of_mem hc, rfl, j, hj, hfault⟩

/-- Taking the fields from an object reports what is flawed by their table. -/
theorem error?_take_iff (h : fields.Lists get columns) (hnames : fields.names.Nodup)
    (hcanonical : (Json.obj ms).Canonical) {other : Document → Except Fault Unit}
    (hother : ∀ m ∈ ms, other (Document.ofJson m.2) = .ok ()) {e : DecodeError} :
    error? (fields.take other ms) = some e ↔
      Flawed (columns.map (·.toMember)) (.obj ms) e := by
  have hsorted : Sorted ms := hcanonical.1
  have hvisit : error? (visit (fields.check? .value) other [] (Document.ofMembers ms)) =
      ms.findSome? fun m => fields.flaw? m.1 m.2 :=
    Fields.error?_visit hsorted.nodup hother (by simp)
  have hshapes : ms.findSome? (fun m => fields.flaw? m.1 m.2) = none ↔
      ∀ n e, ¬ Misshapen (columns.map (·.toMember)) (.obj ms) n e := by
    simp only [findSome?_eq_none_iff_of_nodup hsorted.nodup, h.misshapen_iff hnames hcanonical]
  have hleast : ms.findSome? (fun m => fields.flaw? m.1 m.2) = some e ↔
      LeastMisshapen (columns.map (·.toMember)) (.obj ms) e := by
    simp only [findSome?_eq_some_iff_of_sorted hsorted, LeastMisshapen,
      h.misshapen_iff hnames hcanonical]
  rw [Fields.take, error?_bind_unit, hvisit, Option.or_eq_some_iff, flawed_iff, hleast, hshapes]
  simp only [exists_and_left]
  refine or_congr_right (and_congr_right fun hshapes => ?_)
  have hsound : ∀ c ∈ columns, ∀ j, ms.lookup c.name = some j → c.fault? j = none := by
    refine fun c hc j hj => Option.eq_none_iff_forall_ne_some.2 fun e hfault => ?_
    exact hshapes c.name e ⟨_, List.mem_map_of_mem hc, rfl, j, hj, hfault⟩
  have hmissing : firstMissing? (columns.map (·.toMember)) (.obj ms) =
      (columns.find? fun c => c.isRequired && (ms.lookup c.name).isNone).map (·.toMember) :=
    List.find?_map ..
  simp [h.error?_build hcanonical hsound, hmissing, @eq_comm _ e]

end Fields.Lists

end ServiceBroker.Wire
