import ServiceBroker.Json.Number

/-!
# JSON trees and values

`Json` is a document as it is written: members stand in their order and a name may repeat. A `Value`
is what a document denotes: at every depth the members are sorted by name and no name repeats, the
last member of a name having won. `Object` is the free-form map of the messages.
-/
namespace ServiceBroker

inductive Json where
  | null
  | bool (b : Bool)
  | num (n : Number)
  | str (s : String)
  | arr (items : List Json)
  | obj (members : List (String × Json))

namespace Json

/-- Puts a member in its place by name, over one that is there already. -/
def insert {α : Type} (name : String) (a : α) : List (String × α) → List (String × α)
  | [] => [(name, a)]
  | (n, b) :: rest =>
    if name < n then (name, a) :: (n, b) :: rest
    else if n < name then (n, b) :: insert name a rest
    else (name, a) :: rest

def Sorted {α : Type} (members : List (String × α)) : Prop :=
  members.Pairwise fun x y => x.1 < y.1

theorem mem_insert {α : Type} {name : String} {a : α} {members : List (String × α)}
    {x : String × α} (h : x ∈ insert name a members) : x = (name, a) ∨ x ∈ members := by
  induction members with
  | nil => simpa [insert] using h
  | cons m rest ih =>
    obtain ⟨n, b⟩ := m
    simp only [insert] at h
    split at h
    · simpa using h
    · split at h
      · rcases List.mem_cons.1 h with h | h
        · simp [h]
        · rcases ih h with h | h <;> simp [h]
      · rcases List.mem_cons.1 h with h | h <;> simp [h]

theorem sorted_insert {α : Type} (name : String) (a : α) {members : List (String × α)}
    (h : Sorted members) : Sorted (insert name a members) := by
  induction members with
  | nil => simp [insert, Sorted]
  | cons m rest ih =>
    obtain ⟨n, b⟩ := m
    have hrest : Sorted rest := (List.pairwise_cons.1 h).2
    have hn : ∀ x ∈ rest, n < x.1 := (List.pairwise_cons.1 h).1
    simp only [insert]
    split
    · next hlt =>
      refine List.pairwise_cons.2 ⟨fun x hx => ?_, h⟩
      rcases List.mem_cons.1 hx with rfl | hx
      · exact hlt
      · exact String.lt_trans hlt (hn x hx)
    · split
      · next hlt =>
        refine List.pairwise_cons.2 ⟨fun x hx => ?_, ih hrest⟩
        rcases mem_insert hx with rfl | hx
        · exact hlt
        · exact hn x hx
      · next h₁ h₂ =>
        have heq : name = n := String.le_antisymm (String.not_lt.1 h₂) (String.not_lt.1 h₁)
        exact List.pairwise_cons.2 ⟨fun x hx => heq ▸ hn x hx, hrest⟩

/-- The members in order of name, the last one of a name standing for all of them. -/
def collect {α : Type} (members : List (String × α)) : List (String × α) :=
  members.foldl (fun sorted m => insert m.1 m.2 sorted) []

theorem sorted_collect {α : Type} (members : List (String × α)) : Sorted (collect members) := by
  suffices h : ∀ sorted, Sorted sorted →
      Sorted (members.foldl (fun sorted m => insert m.1 m.2 sorted) sorted) from
    h [] List.Pairwise.nil
  induction members with
  | nil => exact fun _ h => h
  | cons m rest ih => exact fun sorted h => ih _ (sorted_insert m.1 m.2 h)

theorem mem_collect {α : Type} {members : List (String × α)} {x : String × α}
    (h : x ∈ collect members) : x ∈ members := by
  suffices ∀ sorted, x ∈ members.foldl (fun sorted m => insert m.1 m.2 sorted) sorted →
      x ∈ sorted ∨ x ∈ members by simpa using this [] h
  clear h
  induction members with
  | nil => exact fun _ h => .inl h
  | cons m rest ih =>
    intro sorted h
    rcases ih _ h with h | h
    · rcases mem_insert h with h | h
      · exact .inr (by simp [h])
      · exact .inl h
    · exact .inr (List.mem_cons_of_mem _ h)

mutual
/-- Every object of the tree has its members sorted and without repetition. -/
def Canonical : Json → Prop
  | .arr items => CanonicalItems items
  | .obj members => Sorted members ∧ CanonicalMembers members
  | _ => True

def CanonicalItems : List Json → Prop
  | [] => True
  | j :: js => Canonical j ∧ CanonicalItems js

def CanonicalMembers : List (String × Json) → Prop
  | [] => True
  | (_, j) :: ms => Canonical j ∧ CanonicalMembers ms
end

theorem canonicalMembers_iff {members : List (String × Json)} :
    CanonicalMembers members ↔ ∀ m ∈ members, Canonical m.2 := by
  induction members with
  | nil => simp [CanonicalMembers]
  | cons m ms ih => simp [CanonicalMembers, ih]

mutual
/-- What the document denotes, as a canonical tree. -/
def canonical : Json → Json
  | .arr items => .arr (canonicalItems items)
  | .obj members => .obj (collect (canonicalMembers members))
  | .null => .null
  | .bool b => .bool b
  | .num n => .num n
  | .str s => .str s

def canonicalItems : List Json → List Json
  | [] => []
  | j :: js => canonical j :: canonicalItems js

def canonicalMembers : List (String × Json) → List (String × Json)
  | [] => []
  | (n, j) :: ms => (n, canonical j) :: canonicalMembers ms
end

mutual
theorem canonical_canonical : (j : Json) → Canonical (canonical j)
  | .arr items => canonicalItems_canonical items
  | .obj members =>
    ⟨sorted_collect _, canonicalMembers_iff.2 fun m hm =>
      canonicalMembers_iff.1 (canonicalMembers_canonical members) m (mem_collect hm)⟩
  | .null | .bool _ | .num _ | .str _ => trivial

theorem canonicalItems_canonical : (js : List Json) → CanonicalItems (canonicalItems js)
  | [] => trivial
  | j :: js => ⟨canonical_canonical j, canonicalItems_canonical js⟩

theorem canonicalMembers_canonical :
    (ms : List (String × Json)) → CanonicalMembers (canonicalMembers ms)
  | [] => trivial
  | (_, j) :: ms => ⟨canonical_canonical j, canonicalMembers_canonical ms⟩
end

mutual
/-- Equality of trees, with equality of numbers as `Number.same` has it. -/
def same : Json → Json → Bool
  | .null, .null => true
  | .bool a, .bool b => a == b
  | .num m, .num n => m.same n
  | .str s, .str t => s == t
  | .arr js, .arr ks => sameItems js ks
  | .obj ms, .obj ns => sameMembers ms ns
  | _, _ => false

def sameItems : List Json → List Json → Bool
  | [], [] => true
  | j :: js, k :: ks => same j k && sameItems js ks
  | _, _ => false

def sameMembers : List (String × Json) → List (String × Json) → Bool
  | [], [] => true
  | (m, j) :: ms, (n, k) :: ns => m == n && same j k && sameMembers ms ns
  | _, _ => false
end

end Json

/-- A canonical tree. -/
structure Value where
  json : Json
  canonical : json.Canonical

namespace Value

@[ext]
theorem ext {v w : Value} (h : v.json = w.json) : v = w := by
  cases v; cases w; cases h; rfl

/-- What a document denotes. -/
def ofJson (j : Json) : Value := ⟨j.canonical, j.canonical_canonical⟩

def null : Value := ⟨.null, trivial⟩

instance : Inhabited Value := ⟨null⟩

def same (v w : Value) : Bool := v.json.same w.json

end Value

/-- A free-form map: each name once, in the order of their code points. -/
structure Object where
  members : List (String × Value)
  sorted : Json.Sorted members

namespace Object

@[ext]
theorem ext {o p : Object} (h : o.members = p.members) : o = p := by
  cases o; cases p; cases h; rfl

def empty : Object := ⟨[], List.Pairwise.nil⟩

instance : Inhabited Object := ⟨empty⟩
instance : EmptyCollection Object := ⟨empty⟩

def isEmpty (o : Object) : Bool := o.members.isEmpty

def insert (o : Object) (name : String) (v : Value) : Object :=
  ⟨Json.insert name v o.members, Json.sorted_insert name v o.sorted⟩

def get? (o : Object) (name : String) : Option Value := o.members.lookup name

/-- The map that members denote when they are entered one after the other. -/
def ofMembers (members : List (String × Json)) : Object :=
  ⟨Json.collect (members.map fun m => (m.1, Value.ofJson m.2)), Json.sorted_collect _⟩

def toJson (o : Object) : Json := .obj (o.members.map fun m => (m.1, m.2.json))

def same (o p : Object) : Bool := o.toJson.same p.toJson

end Object
end ServiceBroker
