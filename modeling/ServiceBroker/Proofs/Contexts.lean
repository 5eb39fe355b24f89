import ServiceBroker.Platform
import ServiceBroker.Proofs.Json.Canonical
import ServiceBroker.Proofs.Json.Written
import ServiceBroker.Proofs.Text.Bytes

/-!
# Contexts put together from properties

The properties of a context are given one after the other, in any order and any number of times.
What becomes of them depends on the last value of each name only: the context keeps them by name, in
the order of the bytes of the names, and that is how it is written behind its platform.
-/
namespace ServiceBroker
namespace Json

/-! ## Last members -/

section

variable {α : Type} {given others : List (String × α)} {name : String} {a : α}

/-- The member that is given last under a name. -/
def GivenLast (given : List (String × α)) (name : String) (a : α) : Prop :=
  ∃ before after, given = before ++ (name, a) :: after ∧ name ∉ after.map Prod.fst

theorem lookup_reverse_eq_some_iff :
    given.reverse.lookup name = some a ↔ GivenLast given name a := by
  constructor
  · intro h
    obtain ⟨after, before, hgiven, hafter⟩ := List.lookup_eq_some_iff.1 h
    refine ⟨before.reverse, after.reverse, ?_, ?_⟩
    · rw [← List.reverse_inj, hgiven]
      simp
    · grind
  · rintro ⟨before, after, rfl, hafter⟩
    have hnone : after.reverse.lookup name = none := lookup_eq_none (by simpa using hafter)
    rw [List.reverse_append, List.reverse_cons, List.append_assoc, List.lookup_append, hnone]
    simp

theorem lookup_collect_eq_some_iff :
    (collect given).lookup name = some a ↔ GivenLast given name a := by
  rw [lookup_collect, lookup_reverse_eq_some_iff]

theorem lookup_eq_none_iff_not_mem : given.lookup name = none ↔ name ∉ given.map Prod.fst := by
  refine ⟨fun h hmem => ?_, lookup_eq_none⟩
  obtain ⟨m, hm, rfl⟩ := List.mem_map.1 hmem
  simpa using List.lookup_eq_none_iff.1 h m hm

theorem lookup_collect_eq_none_iff :
    (collect given).lookup name = none ↔ name ∉ given.map Prod.fst := by
  rw [lookup_collect, lookup_eq_none_iff_not_mem, List.map_reverse, List.mem_reverse]

/-- Each name is collected once. -/
theorem count_names_collect (given : List (String × α)) (name : String) :
    ((collect given).map Prod.fst).count name = if name ∈ given.map Prod.fst then 1 else 0 := by
  have hmem : name ∈ (collect given).map Prod.fst ↔ name ∈ given.map Prod.fst := by
    rw [← not_iff_not, ← lookup_eq_none_iff_not_mem, lookup_collect_eq_none_iff]
  rw [(sorted_collect given).nodup.count]
  simp only [hmem]

/-- What is collected is determined by the last members. -/
theorem collect_eq_iff : collect given = collect others ↔
    ∀ name a, GivenLast given name a ↔ GivenLast others name a := by
  simp only [← lookup_collect_eq_some_iff]
  constructor
  · intro h name a
    rw [h]
  · intro h
    exact (sorted_collect given).ext (sorted_collect others) fun name => Option.ext (h name)

end

/-! ## Equality of members -/

section

variable {α : Type} {m m' : String × α} {members others : List (String × α)}

theorem Sorted.not_mem_tail (h : Sorted (m :: members)) : m.1 ∉ members.map Prod.fst := by
  intro hmem
  obtain ⟨later, hlater, heq⟩ := List.mem_map.1 hmem
  exact String.lt_irrefl _ (heq ▸ (List.pairwise_cons.1 h).1 later hlater)

theorem Sorted.head_le (h : Sorted (m :: members)) {name : String}
    (hname : name ∈ (m :: members).map Prod.fst) : m.1 ≤ name := by
  obtain ⟨member, hmember, rfl⟩ := List.mem_map.1 hname
  rcases List.mem_cons.1 hmember with rfl | hlater
  · exact String.le_refl _
  · exact String.lt_asymm ((List.pairwise_cons.1 h).1 member hlater)

/-- Members of the same names begin with the same one: each side has the first of the other. -/
theorem Sorted.head_eq (h : Sorted (m :: members)) (hothers : Sorted (m' :: others))
    (hnames : ∀ name, name ∈ (m :: members).map Prod.fst ↔ name ∈ (m' :: others).map Prod.fst) :
    m.1 = m'.1 :=
  String.le_antisymm (h.head_le ((hnames m'.1).2 (List.mem_cons_self ..)))
    (hothers.head_le ((hnames m.1).1 (List.mem_cons_self ..)))

end

/-- A name stands for equal values, numbers being equal as `Number.same` has it, or for none. -/
def SameSlot : Option Value → Option Value → Prop := Option.Rel fun v w => v.same w = true

theorem SameSlot.eq_none_iff {slot other : Option Value} (h : SameSlot slot other) :
    slot = none ↔ other = none := by
  cases h <;> simp

section

variable {members others : List (String × Value)}

theorem mem_names_iff_of_sameSlot
    (h : ∀ name, SameSlot (members.lookup name) (others.lookup name)) (name : String) :
    name ∈ members.map Prod.fst ↔ name ∈ others.map Prod.fst := by
  rw [← not_iff_not, ← lookup_eq_none_iff_not_mem, ← lookup_eq_none_iff_not_mem]
  exact (h name).eq_none_iff

/-- Sorted members are equal if each name stands for the same on either side. -/
theorem sameMembers_iff_lookup (h : Sorted members) (hothers : Sorted others) :
    sameMembers (mapMembers Value.json members) (mapMembers Value.json others) = true ↔
      ∀ name, SameSlot (members.lookup name) (others.lookup name) := by
  induction members generalizing others with
  | nil =>
    cases others with
    | nil => exact iff_of_true rfl fun _ => .none
    | cons m others =>
      refine iff_of_false nofun fun hslots => ?_
      exact List.not_mem_nil ((mem_names_iff_of_sameSlot hslots m.1).2 (List.mem_cons_self ..))
  | cons m members ih =>
    obtain ⟨n, v⟩ := m
    cases others with
    | nil =>
      refine iff_of_false nofun fun hslots => ?_
      exact List.not_mem_nil ((mem_names_iff_of_sameSlot hslots n).1 (List.mem_cons_self ..))
    | cons m others =>
      obtain ⟨n', w⟩ := m
      rw [mapMembers_cons, mapMembers_cons, sameMembers, Bool.and_eq_true, Bool.and_eq_true,
        beq_iff_eq, ih (List.pairwise_cons.1 h).2 (List.pairwise_cons.1 hothers).2]
      constructor
      · rintro ⟨⟨rfl, hvalues⟩, hlater⟩ name
        rw [lookup_cons, lookup_cons]
        split
        · exact .some hvalues
        · exact hlater name
      · intro hslots
        obtain rfl : n = n' := h.head_eq hothers (mem_names_iff_of_sameSlot hslots)
        refine ⟨⟨rfl, ?_⟩, fun name => ?_⟩
        · have hslot := hslots n
          rw [lookup_cons, lookup_cons, if_pos rfl, if_pos rfl] at hslot
          cases hslot with
          | some hvalues => exact hvalues
        · by_cases hname : name = n
          · subst hname
            rw [lookup_eq_none h.not_mem_tail, lookup_eq_none hothers.not_mem_tail]
            exact .none
          · have hslot := hslots name
            rwa [lookup_cons, lookup_cons, if_neg hname, if_neg hname] at hslot

end
end Json

namespace Context
open Json

@[ext]
theorem ext {c d : Context} (hplatform : c.platform = d.platform)
    (hproperties : c.properties = d.properties) : c = d := by
  cases c; cases d; cases hplatform; cases hproperties; rfl

/-- The context of a platform with properties that are given one after the other. -/
def ofProperties (platform : String) (given : List (String × Value)) : Context :=
  given.foldl (fun c m => c.withProperty m.1 m.2) (ofPlatform platform)

theorem foldl_withProperty (c : Context) (given : List (String × Value)) :
    let d := given.foldl (fun c m => c.withProperty m.1 m.2) c
    d.platform = c.platform ∧ d.properties.members =
      given.foldl (fun sorted m => insert m.1 m.2 sorted) c.properties.members := by
  induction given generalizing c with
  | nil => exact ⟨rfl, rfl⟩
  | cons m given ih => exact ih (c.withProperty m.1 m.2)

theorem platform_ofProperties (platform : String) (given : List (String × Value)) :
    (ofProperties platform given).platform = platform :=
  (foldl_withProperty (ofPlatform platform) given).1

theorem members_ofProperties (platform : String) (given : List (String × Value)) :
    (ofProperties platform given).properties.members = collect given :=
  (foldl_withProperty (ofPlatform platform) given).2

theorem toText_eq (c : Context) : Message.toText c =
    "\x7b" ++ ",".intercalate (("platform", Json.str c.platform) ::
      mapMembers Value.json c.properties.members |>.map memberText) ++ "\x7d" :=
  text_obj _

theorem property?_ofProperties (platform : String) (given : List (String × Value))
    (name : String) :
    (ofProperties platform given).property? name = (collect given).lookup name := by
  rw [property?, Object.get?, members_ofProperties]

theorem ofProperties_congr {platform : String} {given others : List (String × Value)}
    (h : ∀ name v, GivenLast given name v ↔ GivenLast others name v) :
    ofProperties platform given = ofProperties platform others := by
  have hcollect : collect given = collect others := collect_eq_iff.2 h
  refine ext ?_ (Object.ext ?_)
  · rw [platform_ofProperties, platform_ofProperties]
  · rw [members_ofProperties, members_ofProperties, hcollect]

/-- Contexts are equal if they are of one platform and have the same properties. -/
theorem same_iff {c d : Context} : Message.same c d = true ↔
    c.platform = d.platform ∧ ∀ name, SameSlot (c.property? name) (d.property? name) := by
  have hproperties : c.properties.same d.properties = true ↔
      ∀ name, SameSlot (c.property? name) (d.property? name) :=
    sameMembers_iff_lookup c.properties.sorted d.properties.sorted
  have hsame : Message.same c d =
      (c.platform == d.platform && true && c.properties.same d.properties) := rfl
  rw [hsame, Bool.and_true, Bool.and_eq_true, beq_iff_eq, hproperties]

/-- A context of properties that are given one after the other has the platform that was named and
the last value of each name, whatever the names are. It is written as its platform and then each of
these names once, in the order of their bytes. So properties with the same last values make the same
context and the same text, in whatever order and however often they are given. -/
theorem determined_by_last_values (platform : String) (given : List (String × Value)) :
    let c := ofProperties platform given
    let names := c.properties.members.map Prod.fst
    c.platform = platform ∧
    (∀ name v, c.property? name = some v ↔ GivenLast given name v) ∧
    (∀ name, c.property? name = none ↔ name ∉ given.map Prod.fst) ∧
    Message.toText c = "\x7b" ++ ",".intercalate
      (memberText ("platform", .str platform) ::
        c.properties.members.map fun m => memberText (m.1, m.2.json)) ++ "\x7d" ∧
    (∀ name, names.count name = if name ∈ given.map Prod.fst then 1 else 0) ∧
    names.Pairwise (fun m n => Text.bytes m < Text.bytes n) ∧
    (∀ name v, (name, v) ∈ c.properties.members ↔ GivenLast given name v) ∧
    (∀ others, Message.same c (ofProperties platform others) = true ↔
      ∀ name, SameSlot (c.property? name) ((ofProperties platform others).property? name)) ∧
    ∀ others, (∀ name v, GivenLast given name v ↔ GivenLast others name v) →
      c = ofProperties platform others ∧
        Message.toText c = Message.toText (ofProperties platform others) := by
  intro c names
  have hplatform : c.platform = platform := platform_ofProperties platform given
  have hmembers : c.properties.members = collect given := members_ofProperties platform given
  have hlookup : ∀ name v, c.property? name = some v ↔ GivenLast given name v := fun name v => by
    rw [property?_ofProperties, lookup_collect_eq_some_iff]
  refine ⟨hplatform, hlookup, ?_, ?_, ?_, ?_, ?_, ?_, ?_⟩
  · intro name
    rw [property?_ofProperties, lookup_collect_eq_none_iff]
  · rw [toText_eq, hplatform, List.map_cons, mapMembers, List.map_map]
    rfl
  · intro name
    simp only [names, hmembers, count_names_collect]
  · refine List.pairwise_map.2 (c.properties.sorted.imp ?_)
    exact Text.bytes_lt_iff.2
  · intro name v
    rw [← hlookup]
    exact ⟨lookup_of_mem c.properties.sorted.nodup, mem_of_lookup⟩
  · intro others
    rw [same_iff, platform_ofProperties, platform_ofProperties]
    exact and_iff_right rfl
  · intro others h
    have heq : c = ofProperties platform others := ofProperties_congr h
    exact ⟨heq, congrArg Message.toText heq⟩

/-- A name that is given again keeps its place among the others and changes its value, and the
name of the platform is one like any other. In UTF-8 the ligature comes before the face, though in
UTF-16 it would not. -/
theorem determined_by_last_values_of_repeats :
    let number (n : Int) : Value := .ofJson (.num (.int n))
    let given := [("ﬁ", number 1), ("platform", .ofJson (.str "x")), ("😀", number 2),
      ("ﬁ", number 3), ("", .null)]
    let others := [("", Value.null), ("😀", number 2), ("ﬁ", number 3),
      ("platform", .ofJson (.str "x"))]
    let c := ofProperties "k8s" given
    (∀ name v, GivenLast given name v ↔ GivenLast others name v) ∧
      c = ofProperties "k8s" others ∧
      Message.toText c = Message.toText (ofProperties "k8s" others) ∧
      Message.toText c = "\x7b\"platform\":\"k8s\",\"\":null,\"platform\":\"x\"," ++
        "\"ﬁ\":3,\"😀\":2\x7d" ∧
      c.platform = "k8s" ∧ c.property? "ﬁ" = some (number 3) ∧ c.property? "fi" = none := by
  intro number given others c
  obtain ⟨hplatform, hsome, hnone, -, -, -, -, -, hothers⟩ :=
    determined_by_last_values "k8s" given
  have hsame : ∀ name v, GivenLast given name v ↔ GivenLast others name v := by
    intro name v
    simp only [← lookup_reverse_eq_some_iff, given, others, List.reverse_cons, List.reverse_nil,
      List.nil_append, List.cons_append, lookup_cons]
    grind
  obtain ⟨heq, htexts⟩ := hothers others hsame
  exact ⟨hsame, heq, htexts, by decide +kernel, hplatform,
    (hsome "ﬁ" _).2 ⟨given.take 3, given.drop 4, rfl, by decide⟩, (hnone "fi").2 (by decide)⟩

end Context
end ServiceBroker
