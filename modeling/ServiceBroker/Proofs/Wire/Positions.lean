import ServiceBroker.Proofs.Wire.Closure

/-!
# Reading by position

A record whose object it does not share may be written as an array of its fields, of which those at
the end may be left out. It is read like the object in which the items stand under the names of
their fields, whatever the items are, and in whatever order the members stand.
-/
namespace ServiceBroker
open Json Wire

namespace Wire

/-! ## Members by their names -/

theorem names_zip {α : Type} : (names : List String) → (as : List α) →
    ((names.zip as).map Prod.fst).Sublist names
  | [], _ => .slnil
  | _ :: _, [] => List.nil_sublist _
  | name :: names, _ :: as => (names_zip names as).cons_cons name

/-- Fields are taken from what stands under their names. -/
theorem Fields.build_congr {α : Type} : (fields : Fields α) → ∀ {m : Medium}
    {members others : List (MemberName × Document)},
    (∀ n ∈ fields.names, memberNamed? n members = memberNamed? n others) →
      fields.build m members = fields.build m others
  | .done, _, _, _, _ => rfl
  | .required name schema rest, _, _, _, h | .optional name schema rest, _, _, _, h
  | .defaulted name schema _ rest, _, _, _, h => by
    obtain ⟨hname, hlater⟩ := List.forall_mem_cons.1 h
    simp only [build_required, build_optional, build_defaulted, hname, rest.build_congr hlater]

/-! ## Items by their positions -/

section

variable {β : Type} {name : String} {names : List String} {d : Document} {ds : List Document}

theorem memberNamed?_zip : memberNamed? name (named ((name :: names).zip (d :: ds))) = some d :=
  if_pos rfl

/-- The item of a field is none of the items of the fields behind it. -/
theorem Fields.build_zip {rest : Fields β} (h : name ∉ rest.names) (m : Medium) :
    rest.build m (named ((name :: rest.names).zip (d :: ds))) =
      rest.build m (named (rest.names.zip ds)) :=
  rest.build_congr fun n hn => if_neg fun (heq : name = n) => h (heq ▸ hn)

end

/-- Fields are taken from items as they are from members. -/
theorem Fields.toOption_positional_eq {α : Type} : (fields : Fields α) → fields.names.Nodup →
    ∀ {m : Medium} {ds : List Document}, ds.length ≤ fields.names.length →
    ∀ record size length index,
      (fields.positional m record size length index ds .closed).toOption =
        (fields.build m (named (fields.names.zip ds))).toOption
  | .done, _, m, ds, hlength => by
    obtain rfl := List.eq_nil_of_length_eq_zero (Nat.le_zero.1 hlength)
    cases m <;> exact fun _ _ _ _ => rfl
  | .required name schema rest, _, _, [], _ => fun _ _ _ _ => rfl
  | .optional name schema rest, h, m, [], _ | .defaulted name schema _ rest, h, m, [], _ => by
    intro record size length index
    obtain ⟨-, hnodup⟩ := List.nodup_cons.1 h
    have hnil : ([] : List Document).length ≤ rest.names.length := Nat.zero_le _
    have hrest := rest.toOption_positional_eq hnodup (m := m) hnil
    rw [List.zip_nil_right] at hrest ⊢
    simp only [positional, build_optional, build_defaulted, ofReading_check, ok_bind, toOption_bind,
      hrest]
    rfl
  | .required name schema rest, h, m, d :: ds, hlength
  | .optional name schema rest, h, m, d :: ds, hlength
  | .defaulted name schema _ rest, h, m, d :: ds, hlength => by
    intro record size length index
    obtain ⟨hname, hnodup⟩ := List.nodup_cons.1 h
    have hrest := rest.toOption_positional_eq hnodup (m := m) (Nat.le_of_succ_le_succ hlength)
    simp only [names, positional, build_required, build_optional, build_defaulted, memberNamed?_zip,
      build_zip hname, Option.elim_some, toOption_bind, hrest]

/-- No more items are taken than there are fields. -/
theorem Fields.length_le_of_positional {α : Type} : (fields : Fields α) → ∀ {m : Medium}
    {record : String} {size length index : Nat} {ds : List Document} {ending : ArrayEnd} {a : α},
    fields.positional m record size length index ds ending = .ok a →
      ds.length ≤ fields.names.length
  | _, _, _, _, _, _, [], _, _, _ => Nat.zero_le _
  | .done, .text _, _, _, _, _, _ :: _, _, _, h | .done, .value, _, _, _, _, _ :: _, _, _, h =>
    nomatch h
  | .required _ _ rest, _, _, _, _, _, _ :: _, _, _, h
  | .optional _ _ rest, _, _, _, _, _, _ :: _, _, _, h
  | .defaulted _ _ _ rest, _, _, _, _, _, _ :: _, _, _, h => by
    obtain ⟨_, -, h⟩ := bind_eq_ok.1 h
    obtain ⟨_, hrest, -⟩ := bind_eq_ok.1 h
    exact Nat.succ_le_succ (rest.length_le_of_positional hrest)

/-- Every value has items, one for each field, from which it is read as they are and as what they
denote. A field that is missing is null among them. -/
theorem Fields.exists_fill? {α : Type} : (fields : Fields α) → fields.Exact → fields.wellFormed →
    (a : α) → fields.Plain a → ∃ items : List Json, items.length = fields.names.length ∧
      IntegralItems items ∧ fields.fill? (items.map some) = some a ∧
        fields.fill? ((items.map canonical).map some) = some a
  | .done, _, _, _, _ => ⟨[], rfl, trivial, rfl, rfl⟩
  | .required name schema rest, hexact, hform, (a, b), hplain => by
    obtain ⟨-, hschema, hrest⟩ := wellFormed_required.1 hform
    obtain ⟨items, hlength, hintegral, hfill, hcanonical⟩ :=
      rest.exists_fill? hexact.2 hrest b hplain.2
    have hwrites := schema.encode_writes hschema a (schema.apart_of_plain a hplain.1)
    exact ⟨schema.encode a :: items, congrArg Nat.succ hlength,
      ⟨schema.integral_encode a hplain.1, hintegral⟩,
      fill?_required.2 ⟨schema.read?_of_writes hexact.1 hwrites, hfill⟩,
      fill?_required.2
        ⟨schema.read?_of_writes hexact.1 (schema.writes_canonical hwrites), hcanonical⟩⟩
  | .optional name schema rest, hexact, hform, (none, b), hplain => by
    obtain ⟨-, -, -, hrest⟩ := wellFormed_optional.1 hform
    obtain ⟨items, hlength, hintegral, hfill, hcanonical⟩ :=
      rest.exists_fill? hexact.2 hrest b hplain.2
    exact ⟨.null :: items, congrArg Nat.succ hlength, ⟨trivial, hintegral⟩,
      fill?_optional.2 ⟨rfl, hfill⟩, fill?_optional.2 ⟨rfl, hcanonical⟩⟩
  | .optional name schema rest, hexact, hform, (some a, b), hplain => by
    obtain ⟨-, hsolid, hschema, hrest⟩ := wellFormed_optional.1 hform
    obtain ⟨items, hlength, hintegral, hfill, hcanonical⟩ :=
      rest.exists_fill? hexact.2 hrest b hplain.2
    have ha := hplain.1 a rfl
    have hnull := schema.encode_ne_null hsolid a
    have hwrites := schema.encode_writes hschema a (schema.apart_of_plain a ha)
    refine ⟨schema.encode a :: items, congrArg Nat.succ hlength,
      ⟨schema.integral_encode a ha, hintegral⟩, fill?_optional.2 ⟨?_, hfill⟩,
      fill?_optional.2 ⟨?_, hcanonical⟩⟩
    · rw [Option.elim_some, nullable?_of_ne_null hnull, schema.read?_of_writes hexact.1 hwrites]
      rfl
    · rw [Option.elim_some, nullable?_of_ne_null (canonical_ne_null hnull),
        schema.read?_of_writes hexact.1 (schema.writes_canonical hwrites)]
      rfl
  | .defaulted name schema default rest, hexact, hform, (a, b), hplain => by
    obtain ⟨-, hschema, hrest⟩ := wellFormed_defaulted.1 hform
    obtain ⟨items, hlength, hintegral, hfill, hcanonical⟩ :=
      rest.exists_fill? hexact.2 hrest b hplain.2
    have hwrites := schema.encode_writes hschema a (schema.apart_of_plain a hplain.1)
    exact ⟨schema.encode a :: items, congrArg Nat.succ hlength,
      ⟨schema.integral_encode a hplain.1, hintegral⟩,
      fill?_defaulted.2 ⟨schema.read?_of_writes hexact.1 hwrites, hfill⟩,
      fill?_defaulted.2
        ⟨schema.read?_of_writes hexact.1 (schema.writes_canonical hwrites), hcanonical⟩⟩

/-! ## Records -/

namespace Schema

variable {α : Type} {name : String} {fields : Fields α} {m : Medium} {ds : List Document}

/-- A record is read from the items of an array as from the members of an object. -/
theorem toOption_decode_record (hnodup : fields.names.Nodup)
    (hlength : ds.length ≤ fields.names.length) {members : List (String × Document)}
    (hperm : members.Perm (fields.names.zip ds)) :
    ((record name fields).decode m (.arr ds .closed)).toOption =
      ((record name fields).decode m (.obj (named members) .closed)).toOption := by
  have hzip : ((fields.names.zip ds).map Prod.fst).Nodup := (names_zip ..).nodup hnodup
  have hnames : (members.map Prod.fst).Nodup := (hperm.map Prod.fst).nodup_iff.2 hzip
  have hknown : ∀ x ∈ members, x.1 ∈ fields.names := fun x hx =>
    (names_zip ..).subset ((hperm.map Prod.fst).mem_iff.1 (List.mem_map_of_mem hx))
  cases henter : m.enter with
  | error e => simp only [decode, henter]; rfl
  | ok inner =>
    have hbuild : fields.build inner (named (fields.names.zip ds)) =
        fields.build inner (named members) := by
      refine fields.build_congr fun n _ => ?_
      rw [memberNamed?_named, memberNamed?_named, lookup_of_perm hperm hzip]
    have hitems := fields.toOption_positional_eq hnodup (m := inner) hlength name fields.size
      ds.length 0
    rw [hbuild] at hitems
    simp only [decode, henter, ok_bind, hitems, ofReading_takeCheck]
    cases hmembers : fields.build inner (named members) with
    | ok a =>
      have hvisit : visit (fields.check? inner) Document.skip [] (named members) = .ok () :=
        Fields.visit_of_build (fun x hx h => absurd (hknown x hx) h) (.of_nodup hnames _) hmembers
      rw [hvisit]
      rfl
    | error e => cases visit (fields.check? inner) Document.skip [] (named members) <;> rfl

/-- An array of more items than there are fields is not read. -/
theorem length_le_of_decode_record {ending : ArrayEnd} {a : α}
    (h : (record name fields).decode m (.arr ds ending) = .ok a) :
    ds.length ≤ fields.names.length := by
  obtain ⟨_, -, h⟩ := bind_eq_ok.1 h
  exact fields.length_le_of_positional h

/-- The names of the fields, in their order, of what may be written as an array of them. -/
def positions? {α : Type} : Schema α → Option (List String)
  | .record _ fields => some fields.names
  | .via _ _ schema => schema.positions?
  | .text | .flag | .any | .dict | .choice _ | .list _ | .shared .. | .either .. => none

theorem nodup_positions {α : Type} : (schema : Schema α) → schema.wellFormed →
    ∀ {names : List String}, schema.positions? = some names → names.Nodup
  | .record _ fields, hform, _, hnames => by
    obtain rfl := Option.some.inj hnames
    exact fields.nodup_names hform
  | .via _ _ schema, hform, _, hnames => schema.nodup_positions hform hnames

/-- Whether the fields share their object with another value. -/
def isShared {α : Type} : Schema α → Bool
  | .shared .. => true
  | .via _ _ schema => schema.isShared
  | .text | .flag | .any | .dict | .choice _ | .list _ | .record .. | .either .. => false

theorem toOption_decode_arr {α : Type} : (schema : Schema α) →
    ∀ {names : List String} {members : List (String × Document)}, schema.positions? = some names →
    schema.wellFormed → ds.length ≤ names.length → members.Perm (names.zip ds) →
      (schema.decode m (.arr ds .closed)).toOption =
        (schema.decode m (.obj (named members) .closed)).toOption
  | .record _ fields, _, _, hnames, hform, hlength, hperm => by
    obtain rfl := Option.some.inj hnames
    exact toOption_decode_record (fields.nodup_names hform) hlength hperm
  | .via _ read schema, _, _, hnames, hform, hlength, hperm => by
    simp only [decode, toOption_map, schema.toOption_decode_arr hnames hform hlength hperm]

theorem length_le_of_decode_arr {α : Type} {ending : ArrayEnd} : (schema : Schema α) →
    ∀ {names : List String} {a : α}, schema.positions? = some names →
      schema.decode m (.arr ds ending) = .ok a → ds.length ≤ names.length
  | .record .., _, _, hnames, h => by
    obtain rfl := Option.some.inj hnames
    exact length_le_of_decode_record h
  | .via _ _ schema, _, _, hnames, h => by
    obtain ⟨_, h, -⟩ := map_eq_ok.1 h
    exact schema.length_le_of_decode_arr hnames h

theorem exactUpTo_id {α : Type} {schema : Schema α} (h : schema.Exact) : schema.ExactUpTo id := by
  cases schema with
  | via write read schema => exact h
  | _ => exact ⟨fun _ => rfl, h⟩

/-- Every value can be written as an array, but for what is never written of it. -/
theorem exists_read?_arr {α : Type} : (schema : Schema α) → ∀ {erase : α → α},
    schema.ExactUpTo erase → schema.wellFormed → ∀ {names : List String},
    schema.positions? = some names → (a : α) → schema.Plain a →
      ∃ items : List Json, items.length = names.length ∧ IntegralItems items ∧
        schema.read? (.arr items) = some (erase a) ∧
          schema.read? (.arr (items.map canonical)) = some (erase a)
  | .record _ fields, erase, hexact, hform, _, hnames, a, hplain => by
    obtain rfl := Option.some.inj hnames
    rw [hexact.1]
    exact fields.exists_fill? hexact.2 hform a hplain
  | .via write read schema, erase, hexact, hform, _, hnames, a, hplain => by
    obtain ⟨items, hlength, hintegral, hread, hcanonical⟩ :=
      schema.exists_read?_arr (exactUpTo_id hexact.2) hform hnames (write a) hplain
    refine ⟨items, hlength, hintegral, ?_, ?_⟩
    · rw [read?, hread, ← hexact.1]
      rfl
    · rw [read?, hcanonical, ← hexact.1]
      rfl

/-- Fields that share their object cannot be told apart by position. -/
theorem decode_arr_ne_ok {α : Type} {ending : ArrayEnd} : (schema : Schema α) → ∀ {a : α},
    schema.isShared → schema.decode m (.arr ds ending) ≠ .ok a
  | .shared .., _, _ => nofun
  | .via _ _ schema, _, hshared => fun h => by
    obtain ⟨_, h, -⟩ := map_eq_ok.1 h
    exact schema.decode_arr_ne_ok hshared h

end Schema
end Wire

/-! ## Trees as documents -/

namespace Json

theorem Document.ofItems_eq_map (items : List Json) : ofItems items = items.map ofJson := by
  induction items with
  | nil => rfl
  | cons j items ih => rw [ofItems, ih, List.map_cons]

/-- What an array denotes, as a document. -/
theorem Document.ofJson_canonical_arr (items : List Json) :
    ofJson (Json.arr items).canonical = .arr (items.map fun j => ofJson j.canonical) .closed := by
  rw [Json.canonical, canonicalItems_eq_map, ofJson, ofItems_eq_map, List.map_map]
  rfl

/-- What an object of different names denotes, as a document: its members in some order. -/
theorem Document.exists_ofJson_canonical_obj {members : List (String × Json)}
    (h : (members.map Prod.fst).Nodup) :
    ∃ sorted : List (String × Document),
      ofJson (Json.obj members).canonical = .obj (named sorted) .closed ∧
        sorted.Perm (mapMembers (fun j => ofJson j.canonical) members) := by
  have hcollect : (collect (mapMembers canonical members)).Perm (mapMembers canonical members) :=
    collect_perm (by rwa [names_mapMembers])
  refine ⟨mapMembers ofJson (collect (mapMembers canonical members)), ?_, ?_⟩
  · rw [canonical_obj, ofJson, ofMembers_eq_named]
  · have hmembers := hcollect.map fun m => (m.1, ofJson m.2)
    rwa [mapMembers, List.map_map] at hmembers

end Json
end ServiceBroker
