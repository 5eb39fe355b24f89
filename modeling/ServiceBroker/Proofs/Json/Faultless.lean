import ServiceBroker.Json.Document

/-!
# Documents without faults

The document of a tree is taken in as that tree, as long as it does not nest too deep, and can
always be skipped.
-/
namespace ServiceBroker.Json

@[simp]
theorem ok_bind {ε α β : Type} (a : α) (f : α → Except ε β) : (Except.ok a >>= f) = f a := rfl

theorem bind_eq_ok {ε α β : Type} {x : Except ε α} {f : α → Except ε β} {b : β} :
    (x >>= f) = .ok b ↔ ∃ a, x = .ok a ∧ f a = .ok b := by
  cases x with
  | error e => exact ⟨nofun, nofun⟩
  | ok a => exact ⟨fun h => ⟨a, rfl, h⟩, fun ⟨_, rfl, h⟩ => h⟩

mutual
/-- How many containers the innermost value stands in, at most. -/
def depth : Json → Nat
  | .arr items => depthItems items + 1
  | .obj members => depthMembers members + 1
  | .null | .bool _ | .num _ | .str _ => 0

def depthItems : List Json → Nat
  | [] => 0
  | j :: js => max j.depth (depthItems js)

def depthMembers : List (String × Json) → Nat
  | [] => 0
  | (_, j) :: ms => max j.depth (depthMembers ms)
end

theorem depth_le_depthItems {js : List Json} {j : Json} (h : j ∈ js) : j.depth ≤ depthItems js := by
  induction js with
  | nil => simp at h
  | cons k js ih =>
    rw [depthItems]
    rcases List.mem_cons.1 h with rfl | h
    · exact Nat.le_max_left _ _
    · exact Nat.le_trans (ih h) (Nat.le_max_right _ _)

theorem depth_le_depthMembers {ms : List (String × Json)} {m : String × Json} (h : m ∈ ms) :
    m.2.depth ≤ depthMembers ms := by
  induction ms with
  | nil => simp at h
  | cons k ms ih =>
    obtain ⟨n, j⟩ := k
    rw [depthMembers]
    rcases List.mem_cons.1 h with rfl | h
    · exact Nat.le_max_left _ _
    · exact Nat.le_trans (ih h) (Nat.le_max_right _ _)

/-- There is room for so many containers around each other. -/
def Room.Holds (room : Room) (depth : Nat) : Prop := ∀ n, room = some n → depth ≤ n

namespace Room

theorem Holds.mono {room : Room} {d e : Nat} (h : room.Holds e) (hde : d ≤ e) : room.Holds d :=
  fun n hn => Nat.le_trans hde (h n hn)

theorem holds_unlimited (d : Nat) : Holds none d := fun _ h => nomatch h

theorem holds_ofText {d : Nat} (h : d ≤ 127) : ofText.Holds d := fun _ hn => by
  cases hn
  exact h

/-- A container that there is room for can be entered. -/
theorem Holds.enter {room : Room} {d : Nat} (h : room.Holds (d + 1)) :
    ∃ inner : Room, room.enter = .ok inner ∧ inner.Holds d := by
  cases room with
  | none => exact ⟨none, rfl, holds_unlimited d⟩
  | some n =>
    have hn := h n rfl
    cases n with
    | zero => omega
    | succ n => exact ⟨some n, rfl, fun k hk => by cases hk; omega⟩

theorem holds_of_enter {room inner : Room} {d : Nat} (h : room.enter = .ok inner)
    (hinner : inner.Holds d) : room.Holds (d + 1) := by
  match room, h with
  | none, _ => exact holds_unlimited _
  | some (n + 1), rfl =>
    rintro k ⟨⟩
    exact Nat.succ_le_succ (hinner n rfl)

theorem Holds.both {room : Room} {d e : Nat} (hd : room.Holds d) (he : room.Holds e) :
    room.Holds (max d e) :=
  fun n hn => Nat.max_le.2 ⟨hd n hn, he n hn⟩

end Room

namespace ArrayEnd

theorem closed_of_check {ending : ArrayEnd} {a : Unit} (h : ending.check = .ok a) :
    ending = .closed := by
  cases ending with
  | closed => rfl
  | fault _ | dangling _ => exact nomatch h

end ArrayEnd

namespace ObjectEnd

theorem closed_of_takeCheck {ending : ObjectEnd} {a : Unit} (h : ending.takeCheck = .ok a) :
    ending = .closed := by
  unfold takeCheck at h
  split at h <;> first | rfl | exact nomatch h

end ObjectEnd

namespace Document

mutual
theorem take_ofJson : (j : Json) → {room : Room} → room.Holds j.depth → (ofJson j).take room = .ok j
  | .null, _, _ | .bool _, _, _ | .num _, _, _ | .str _, _, _ => rfl
  | .arr items, _, h => by
    obtain ⟨inner, henter, hinner⟩ := Room.Holds.enter h
    have hitems := takeItems_ofItems items hinner
    simp only [ofJson, take, henter, ok_bind, hitems]
    rfl
  | .obj members, _, h => by
    obtain ⟨inner, henter, hinner⟩ := Room.Holds.enter h
    have hmembers := takeMembers_ofMembers members hinner
    simp only [ofJson, take, henter, ok_bind, hmembers]
    rfl

theorem takeItems_ofItems : (js : List Json) → {room : Room} → room.Holds (depthItems js) →
    takeItems room (ofItems js) = .ok js
  | [], _, _ => rfl
  | j :: js, _, h => by
    have hj := take_ofJson j (h.mono (Nat.le_max_left _ _))
    have hjs := takeItems_ofItems js (h.mono (Nat.le_max_right _ _))
    simp only [ofItems, takeItems, hj, hjs]
    rfl

theorem takeMembers_ofMembers : (ms : List (String × Json)) → {room : Room} →
    room.Holds (depthMembers ms) → takeMembers room (ofMembers ms) = .ok ms
  | [], _, _ => rfl
  | (n, j) :: ms, _, h => by
    have hj := take_ofJson j (h.mono (Nat.le_max_left _ _))
    have hms := takeMembers_ofMembers ms (h.mono (Nat.le_max_right _ _))
    simp only [ofMembers, takeMembers, hj, hms]
    rfl
end

mutual
theorem skip_ofJson : (j : Json) → (ofJson j).skip = .ok ()
  | .null | .bool _ | .num _ | .str _ => rfl
  | .arr items => by
    simp only [ofJson, skip, skipItems_ofItems items]
    rfl
  | .obj members => by
    simp only [ofJson, skip, skipMembers_ofMembers members]
    rfl

theorem skipItems_ofItems : (js : List Json) → skipItems (ofItems js) = .ok ()
  | [] => rfl
  | j :: js => by
    simp only [ofItems, skipItems, skip_ofJson j]
    exact skipItems_ofItems js

theorem skipMembers_ofMembers : (ms : List (String × Json)) → skipMembers (ofMembers ms) = .ok ()
  | [] => rfl
  | (_, j) :: ms => by
    simp only [ofMembers, skipMembers, skip_ofJson j]
    exact skipMembers_ofMembers ms
end

/-! ## Documents that are taken in -/

mutual
/-- A document that is taken in is the document of the tree, and does not nest too deep. -/
theorem eq_ofJson_of_take : (d : Document) → ∀ {room : Room} {j : Json}, d.take room = .ok j →
    d = ofJson j ∧ room.Holds j.depth
  | .null, _, _, rfl | .bool _, _, _, rfl | .num _, _, _, rfl | .str _, _, _, rfl =>
    ⟨rfl, fun _ _ => Nat.zero_le _⟩
  | .arr items ending, room, j, h => by
    obtain ⟨inner, henter, h⟩ := bind_eq_ok.1 h
    obtain ⟨js, hitems, h⟩ := bind_eq_ok.1 h
    obtain ⟨_, hending, h⟩ := bind_eq_ok.1 h
    cases h
    obtain ⟨rfl, hdepth⟩ := eq_ofItems_of_takeItems items hitems
    obtain rfl := ArrayEnd.closed_of_check hending
    exact ⟨rfl, Room.holds_of_enter henter hdepth⟩
  | .obj members ending, room, j, h => by
    obtain ⟨inner, henter, h⟩ := bind_eq_ok.1 h
    obtain ⟨ms, hmembers, h⟩ := bind_eq_ok.1 h
    obtain ⟨_, hending, h⟩ := bind_eq_ok.1 h
    cases h
    obtain ⟨rfl, hdepth⟩ := eq_ofMembers_of_takeMembers members hmembers
    obtain rfl := ObjectEnd.closed_of_takeCheck hending
    exact ⟨rfl, Room.holds_of_enter henter hdepth⟩
  | .outOfRange, _, _, h | .unpaired _, _, _, h | .broken .., _, _, h | .missing _, _, _, h =>
    nomatch h

theorem eq_ofItems_of_takeItems : (ds : List Document) → ∀ {room : Room} {js : List Json},
    takeItems room ds = .ok js → ds = ofItems js ∧ room.Holds (depthItems js)
  | [], _, _, rfl => ⟨rfl, fun _ _ => Nat.zero_le _⟩
  | d :: ds, room, js, h => by
    obtain ⟨j, hj, h⟩ := bind_eq_ok.1 h
    obtain ⟨ks, hks, h⟩ := bind_eq_ok.1 h
    cases h
    obtain ⟨rfl, hdepth⟩ := eq_ofJson_of_take d hj
    obtain ⟨rfl, hdepths⟩ := eq_ofItems_of_takeItems ds hks
    exact ⟨rfl, hdepth.both hdepths⟩

theorem eq_ofMembers_of_takeMembers : (members : List (MemberName × Document)) →
    ∀ {room : Room} {ms : List (String × Json)}, takeMembers room members = .ok ms →
      members = ofMembers ms ∧ room.Holds (depthMembers ms)
  | [], _, _, rfl => ⟨rfl, fun _ _ => Nat.zero_le _⟩
  | (name, d) :: members, room, ms, h => by
    obtain ⟨n, hn, h⟩ := bind_eq_ok.1 h
    obtain ⟨j, hj, h⟩ := bind_eq_ok.1 h
    obtain ⟨ks, hks, h⟩ := bind_eq_ok.1 h
    cases h
    cases hn
    obtain ⟨rfl, hdepth⟩ := eq_ofJson_of_take d hj
    obtain ⟨rfl, hdepths⟩ := eq_ofMembers_of_takeMembers members hks
    exact ⟨rfl, hdepth.both hdepths⟩
end

end Document

/-- A text that is parsed has the document of its tree. -/
theorem ofText_of_parse {room : Room} {text : String} {j : Json} (h : parse room text = .ok j) :
    Document.ofText text = (.ofJson j, true) ∧ room.Holds j.depth := by
  obtain ⟨k, htake, h⟩ := bind_eq_ok.1 h
  split at h
  · next hcomplete =>
    cases h
    obtain ⟨heq, hdepth⟩ := Document.eq_ofJson_of_take _ htake
    exact ⟨Prod.ext heq hcomplete, hdepth⟩
  · exact nomatch h

theorem parse_of_ofText {room : Room} {text : String} {j : Json}
    (h : Document.ofText text = (.ofJson j, true)) (hdepth : room.Holds j.depth) :
    parse room text = .ok j := by
  simp only [parse, h, Document.take_ofJson j hdepth]
  rfl

end ServiceBroker.Json
