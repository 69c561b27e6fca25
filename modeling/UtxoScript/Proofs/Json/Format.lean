import UtxoScript.Json.Format
import UtxoScript.Proofs.Json.Reader
import UtxoScript.Proofs.List
import UtxoScript.Proofs.Text.Decimal

/-!
# The data form of scripts

What the data form of a script looks like is said without the reader: `Element.Form` for an element,
`Json.HasElements` for the object or array around the elements. A value is read as a script exactly
if it has that form (`ofJson?_eq_some_iff`), so numbers and bytes are never cut to fit. The main
statement, `json_form`, adds that a script that is written as JSON text is read back, and that one
number out of range makes the whole script unreadable.
-/

namespace UtxoScript

/-! ## Numbers -/

namespace Json

/-- The value is this number, written in digits alone. -/
def Is (json : Json) (n : Nat) : Prop :=
  ∃ lexeme, json = .number lexeme ∧ Text.Decimal.read? lexeme = some n

/-- A number is written as itself. -/
theorem natural_is (n : Nat) : (natural n).Is n := ⟨_, rfl, Text.Decimal.read?_toString n⟩

/-- A number is read under a bound if it is below the bound. -/
theorem below?_eq_some_iff {json : Json} {bound n : Nat} :
    json.below? bound = some n ↔ json.Is n ∧ n < bound := by
  unfold below?
  split
  · next lexeme =>
    rw [Text.Decimal.below?_eq_some_iff]
    constructor
    · rintro ⟨hread, hlt⟩
      exact ⟨⟨lexeme, rfl, hread⟩, hlt⟩
    · rintro ⟨⟨_, heq, hread⟩, hlt⟩
      cases heq
      exact ⟨hread, hlt⟩
  · next hother =>
    refine iff_of_false (by simp) ?_
    rintro ⟨⟨lexeme, heq, -⟩, -⟩
    exact hother lexeme heq

/-- A byte is a number below 256. -/
theorem byte?_eq_some_iff {json : Json} {byte : UInt8} :
    json.byte? = some byte ↔ json.Is byte.toNat := by
  unfold byte?
  rw [Option.map_eq_some_iff]
  constructor
  · rintro ⟨n, hn, rfl⟩
    obtain ⟨his, hlt⟩ := below?_eq_some_iff.1 hn
    rwa [UInt8.toNat_ofNat_of_lt' hlt]
  · intro h
    exact ⟨byte.toNat, below?_eq_some_iff.2 ⟨h, byte.toNat_lt⟩, UInt8.ofNat_toNat⟩

end Json

/-! ## Elements -/

/-- The data form of an element. -/
inductive Element.Form : Json → Element → Prop
  /-- The bytes of a push are numbers up to 255. -/
  | data {values : List Json} {bytes : Bytes}
    (h : List.Forall₂ (fun value byte => value.Is byte.toNat ∧ byte.toNat ≤ 255) values bytes) :
    Form (.object [(some "Data", .array values)]) (.data bytes)
  /-- A small integer is a number from one to sixteen. -/
  | number {value : Json} {n : SmallInt} (h : value.Is n.toNat) (hone : 1 ≤ n.toNat)
    (hle : n.toNat ≤ 16) : Form (.object [(some "Number", value)]) (.number n)
  /-- An opcode goes by its tag. -/
  | op (opcode : Opcode) : Form (.object [(some "Op", .text (some opcode.tag))]) (.op opcode)
  /-- The tag may stand in an object of its own. -/
  | opObject (opcode : Opcode) :
    Form (.object [(some "Op", .object [(some opcode.tag, .null)])]) (.op opcode)
  /-- A byte without a name is a number up to 255. -/
  | raw {value : Json} {byte : UInt8} (h : value.Is byte.toNat) (hle : byte.toNat ≤ 255) :
    Form (.object [(some "Raw", value)]) (.raw byte)

/-- What is named a number has the form of an element only if it is a number in range. -/
theorem Element.Form.exists_is {value : Json} {element : Element}
    (h : Form (.object [(some "Number", value)]) element) :
    ∃ n, value.Is n ∧ 1 ≤ n ∧ n ≤ 16 := by
  generalize hjson : Json.object [(some "Number", value)] = json at h
  cases h with
  | number his hone hle =>
    cases hjson
    exact ⟨_, his, hone, hle⟩
  | _ => simp at hjson

/-- Bytes are read from an array of numbers below 256. -/
theorem Bytes.ofJson?_eq_some_iff {json : Json} {bytes : Bytes} :
    Bytes.ofJson? json = some bytes ↔ ∃ values, json = .array values ∧
      List.Forall₂ (fun value byte => value.Is byte.toNat ∧ byte.toNat ≤ 255) values bytes := by
  have hbyte (value : Json) (byte : UInt8) :
      value.byte? = some byte ↔ value.Is byte.toNat ∧ byte.toNat ≤ 255 := by
    rw [Json.byte?_eq_some_iff]
    exact (and_iff_left (Nat.le_of_lt_succ byte.toNat_lt)).symm
  unfold Bytes.ofJson? Json.array?
  split
  · next values =>
    rw [Option.bind_some, mapM_eq_some_iff]
    simp [hbyte]
  · next hother =>
    refine iff_of_false (by simp) ?_
    rintro ⟨values, rfl, -⟩
    exact hother values rfl

/-- An opcode is read from its tag, alone or in an object. -/
theorem Json.tag?_eq_some_iff {json : Json} {name : String} :
    json.tag? = some name ↔
      json = .text (some name) ∨ json = .object [(some name, .null)] := by
  unfold Json.tag?
  split
  · simp
  · simp
  · next htext hobject =>
    refine iff_of_false (by simp) ?_
    rintro (rfl | rfl)
    · exact htext _ rfl
    · exact hobject _ rfl

/-- A value is read as an element exactly if it is the data form of the element. -/
theorem Element.ofJson?_eq_some_iff {json : Json} {element : Element} :
    Element.ofJson? json = some element ↔ Element.Form json element := by
  constructor
  · intro h
    unfold Element.ofJson? at h
    split at h
    · next kind value =>
      -- The four names are tried in turn, and an object of another name is no element.
      split_ifs at h with hdata hnumber hop hraw
      · obtain ⟨bytes, hbytes, rfl⟩ := Option.map_eq_some_iff.1 h
        obtain ⟨values, rfl, hvalues⟩ := Bytes.ofJson?_eq_some_iff.1 hbytes
        exact hdata ▸ .data hvalues
      · -- The number goes through the check for a small integer, so it is the number that is read.
        obtain ⟨n, hn, rfl⟩ := Option.map_eq_some_iff.1 h
        obtain ⟨k, hk, hsmall⟩ := Option.bind_eq_some_iff.1 hn
        have his := (Json.below?_eq_some_iff.1 hk).1
        rw [← SmallInt.ofNat?_eq_some_iff.1 hsmall] at his
        exact hnumber ▸ .number his n.toNat_bounds.1 n.toNat_bounds.2
      · obtain ⟨opcode, hopcode, rfl⟩ := Option.map_eq_some_iff.1 h
        obtain ⟨name, hname, htag⟩ := Option.bind_eq_some_iff.1 hopcode
        subst hop
        rw [← Opcode.tag_of_ofTag? htag] at hname
        rcases Json.tag?_eq_some_iff.1 hname with rfl | rfl
        · exact .op opcode
        · exact .opObject opcode
      · obtain ⟨byte, hbyte, rfl⟩ := Option.map_eq_some_iff.1 h
        exact hraw ▸ .raw (Json.byte?_eq_some_iff.1 hbyte) (Nat.le_of_lt_succ byte.toNat_lt)
    · contradiction
  · intro h
    cases h with
    | data hvalues =>
      have hbytes := Bytes.ofJson?_eq_some_iff.2 ⟨_, rfl, hvalues⟩
      simp [Element.ofJson?, hbytes]
    | @number value n his =>
      have hsmall : (value.below? UInt8.size).bind SmallInt.ofNat? = some n :=
        Option.bind_eq_some_iff.2 ⟨n.toNat, Json.below?_eq_some_iff.2 ⟨his, n.val.toNat_lt⟩,
          SmallInt.ofNat?_eq_some_iff.2 rfl⟩
      simp [Element.ofJson?, hsmall]
    | op opcode => simp [Element.ofJson?, Json.tag?]
    | opObject opcode => simp [Element.ofJson?, Json.tag?]
    | raw his =>
      have hbyte := Json.byte?_eq_some_iff.2 his
      simp [Element.ofJson?, hbyte]

/-- An element has the data form that it is written in. -/
theorem Element.form_toJson (element : Element) : Element.Form element.toJson element := by
  cases element with
  | data bytes =>
    refine .data (List.forall₂_map_left_iff.2 (List.forall₂_same.2 fun byte _ => ?_))
    exact ⟨Json.natural_is _, Nat.le_of_lt_succ byte.toNat_lt⟩
  | number n => exact .number (Json.natural_is _) n.toNat_bounds.1 n.toNat_bounds.2
  | op opcode => exact .op opcode
  | raw byte => exact .raw (Json.natural_is _) (Nat.le_of_lt_succ byte.toNat_lt)

/-! ## Scripts -/

/-- What stands around the elements of a script: an object with one member for them, whose other
keys may be any strings, or an array of one item. -/
inductive Json.HasElements : Json → List Json → Prop
  /-- The elements are a member of an object. -/
  | object {before after : List (Option String × Json)} {items : List Json}
    (h : ∀ member ∈ before ++ after, ∃ key, member.1 = some key ∧ key ≠ "elements") :
    HasElements (.object (before ++ (some "elements", .array items) :: after)) items
  /-- The elements are the only item of an array. -/
  | array {items : List Json} : HasElements (.array [.array items]) items

/-- The values behind a key are the one value of the one member that has the key. -/
theorem Json.valuesOf_eq_singleton_iff {key : String} {members : List (Option String × Json)}
    {value : Json} :
    valuesOf key members = [value] ↔ ∃ before after,
      members = before ++ (some key, value) :: after ∧
        ∀ member ∈ before ++ after, member.1 ≠ some key := by
  have hnone (member : Option String × Json) :
      (if member.1 = some key then some member.2 else none) = none ↔ member.1 ≠ some key := by
    simp
  unfold valuesOf
  rw [List.filterMap_eq_cons_iff]
  simp only [hnone, List.filterMap_eq_nil_iff, List.forall_mem_append]
  constructor
  · rintro ⟨before, ⟨key', value'⟩, after, rfl, hbefore, hmember, hafter⟩
    obtain ⟨rfl, rfl⟩ := by simpa using hmember
    exact ⟨before, after, rfl, hbefore, hafter⟩
  · rintro ⟨before, after, rfl, hbefore, hafter⟩
    exact ⟨before, _, after, rfl, hbefore, if_pos rfl, hafter⟩

/-- The value of a field is found exactly if it is the only value behind the key. -/
theorem Json.field?_eq_some_iff {key : String} {members : List (Option String × Json)}
    {value : Json} : field? members key = some (some value) ↔ valuesOf key members = [value] := by
  unfold field?
  split
  · next h => simp [h]
  · next h => simp [h]
  · next hnil hsingle =>
    refine iff_of_false (by simp) ?_
    intro h
    exact hsingle value h

/-- The elements of a script are found exactly if they stand where they should. -/
theorem Json.fields?_elements_iff {json : Json} {items : List Json} :
    json.fields? ["elements"] = some [some (.array items)] ↔ json.HasElements items := by
  constructor
  · intro h
    unfold fields? at h
    split at h
    · next values =>
      split_ifs at h with hlength
      obtain ⟨value, rfl⟩ := List.length_eq_one_iff.1 hlength
      cases h
      exact .array
    · next members =>
      split_ifs at h with hkeys
      rw [mapM_eq_some_iff, List.forall₂_cons, field?_eq_some_iff, valuesOf_eq_singleton_iff] at h
      obtain ⟨⟨before, after, rfl, hother⟩, -⟩ := h
      rw [List.all_eq_true, List.forall_mem_append, List.forall_mem_cons] at hkeys
      refine .object fun member hmember => ?_
      have hstring := List.forall_mem_append.2 ⟨hkeys.1, hkeys.2.2⟩ member hmember
      obtain ⟨key, hkey⟩ := Option.isSome_iff_exists.1 hstring
      refine ⟨key, hkey, ?_⟩
      rintro rfl
      exact hother member hmember hkey
    · contradiction
  · intro h
    cases h with
    | array => rfl
    | @object before after _ hother =>
      have hstring : ∀ member ∈ before ++ after, member.1.isSome := by
        intro member hmember
        obtain ⟨key, hkey, -⟩ := hother member hmember
        rw [hkey]
        rfl
      have hkeys : (before ++ (some "elements", .array items) :: after).all (·.1.isSome) = true := by
        rw [List.forall_mem_append] at hstring
        rw [List.all_eq_true, List.forall_mem_append, List.forall_mem_cons]
        exact ⟨hstring.1, rfl, hstring.2⟩
      have hvalues : valuesOf "elements" (before ++ (some "elements", .array items) :: after) =
          [.array items] := by
        refine valuesOf_eq_singleton_iff.2 ⟨before, after, rfl, fun member hmember => ?_⟩
        obtain ⟨key, hkey, hne⟩ := hother member hmember
        rw [hkey]
        exact fun heq => hne (Option.some.inj heq)
      rw [fields?, if_pos hkeys, mapM_eq_some_iff]
      exact .cons (field?_eq_some_iff.2 hvalues) .nil

/-- A value is read as a script exactly if it is the data form of the script. -/
theorem Script.ofJson?_eq_some_iff {json : Json} {script : Script} :
    Script.ofJson? json = some script ↔
      ∃ items, json.HasElements items ∧ List.Forall₂ Element.Form items script := by
  have hread (items : List Json) : items.mapM Element.ofJson? = some script ↔
      List.Forall₂ Element.Form items script := by
    rw [mapM_eq_some_iff]
    simp only [Element.ofJson?_eq_some_iff]
  constructor
  · intro h
    unfold Script.ofJson? at h
    split at h
    · next elements hfields =>
      obtain ⟨items, hitems, hscript⟩ := Option.bind_eq_some_iff.1 h
      unfold Json.array? at hitems
      split at hitems
      · cases hitems
        exact ⟨items, Json.fields?_elements_iff.1 hfields, (hread items).1 hscript⟩
      · contradiction
    · contradiction
  · rintro ⟨items, helements, hscript⟩
    rw [Script.ofJson?, Json.fields?_elements_iff.2 helements]
    exact (hread items).2 hscript

/-- A script has the data form that it is written in. -/
theorem Script.ofJson?_toJson (script : Script) : Script.ofJson? script.toJson = some script := by
  refine Script.ofJson?_eq_some_iff.2 ⟨script.map Element.toJson, ?_, ?_⟩
  · exact @Json.HasElements.object [] [] _ (by simp)
  · exact List.forall₂_map_left_iff.2 (List.forall₂_same.2 fun element _ => element.form_toJson)

/-! ## Scripts as text -/

/-- The numbers in the data form of an element have the form of numbers. -/
theorem Element.wellFormed_toJson (element : Element) : element.toJson.WellFormed := by
  cases element with
  | data bytes =>
    refine Json.wellFormed_record (List.forall_mem_singleton.2 (Json.wellFormed_array ?_))
    exact List.forall_mem_map.2 fun byte _ => Json.wellFormed_natural byte.toNat
  | number n => exact Json.wellFormed_record (List.forall_mem_singleton.2 (Json.wellFormed_natural _))
  | op opcode => exact Json.wellFormed_record (List.forall_mem_singleton.2 (Json.wellFormed_string _))
  | raw byte => exact Json.wellFormed_record (List.forall_mem_singleton.2 (Json.wellFormed_natural _))

/-- A script is read from the text that it is written as. -/
theorem Script.ofJsonText?_toJsonText (script : Script) :
    Script.ofJsonText? script.toJsonText = some script := by
  have hform : script.toJson.WellFormed := by
    refine Json.wellFormed_record (List.forall_mem_singleton.2 (Json.wellFormed_array ?_))
    exact List.forall_mem_map.2 fun element _ => element.wellFormed_toJson
  rw [Script.ofJsonText?, Script.toJsonText, Json.read?_toText hform, Option.bind_some,
    Script.ofJson?_toJson]

/-- A JSON text is read as a script exactly if it is one value, and the value is the data form of
the script. -/
theorem Script.ofJsonText?_eq_some_iff {text : String} {script : Script} :
    Script.ofJsonText? text = some script ↔
      ∃ json items, Json.read? text = some json ∧ json.HasElements items ∧
        List.Forall₂ Element.Form items script := by
  simp only [Script.ofJsonText?, Option.bind_eq_some_iff, Script.ofJson?_eq_some_iff,
    exists_and_left]

/-- What stands around elements stands around no other elements. -/
theorem Json.HasElements.unique {json : Json} {items items' : List Json}
    (h : json.HasElements items) (h' : json.HasElements items') : items = items' := by
  have hfields := Json.fields?_elements_iff.2 h
  rw [Json.fields?_elements_iff.2 h'] at hfields
  cases hfields
  rfl

/-- **JSON and scripts.** A script is read from its data form, and from the JSON text of it. The
texts that are read as a script are those whose value is a data form: every number of the script is
one from one to sixteen that is written there, and every byte a number up to 255. So what has been
read can be written and read again. Where one element is a number out of this range, nothing is read
of the whole. -/
theorem json_form :
    (∀ script : Script, Script.ofJson? script.toJson = some script ∧
      Script.ofJsonText? script.toJsonText = some script) ∧
    (∀ (text : String) (script : Script), Script.ofJsonText? text = some script ↔
      ∃ json items, Json.read? text = some json ∧ json.HasElements items ∧
        List.Forall₂ Element.Form items script) ∧
    ∀ (text : String) (json : Json) (before after : List Json) (value : Json),
      Json.read? text = some json →
      json.HasElements (before ++ .object [(some "Number", value)] :: after) →
      (∀ n, 1 ≤ n → n ≤ 16 → ¬ value.Is n) → Script.ofJsonText? text = none := by
  refine ⟨fun script => ⟨script.ofJson?_toJson, script.ofJsonText?_toJsonText⟩,
    fun _ _ => Script.ofJsonText?_eq_some_iff, ?_⟩
  intro text json before after value hread helements hrange
  rw [Option.eq_none_iff_forall_ne_some]
  intro script hscript
  obtain ⟨json', items, hread', helements', hform⟩ := Script.ofJsonText?_eq_some_iff.1 hscript
  rw [hread] at hread'
  cases hread'
  rw [← helements.unique helements'] at hform
  -- The element has the form of some element of the script, which is a number in range.
  have hrest := List.forall₂_drop_append script before _ hform.flip
  rcases List.forall₂_cons_right_iff.1 hrest with ⟨element, -, helement, -, -⟩
  obtain ⟨n, his, hone, hle⟩ := helement.exists_is
  exact hrange n hone hle his

/-- Behind a duplication, the number seventeen makes the script unreadable. -/
theorem json_form_seventeen : Script.ofJsonText?
    "\x7b\"elements\":[\x7b\"Op\":\"Dup\"\x7d,\x7b\"Number\":17\x7d]\x7d" = none := by
  let dup : Json := Element.toJson (.op .dup)
  let seventeen : Json := .record [("Number", .natural 17)]
  let json : Json := .record [("elements", .array [dup, seventeen])]
  have hform : json.WellFormed := by
    refine Json.wellFormed_record (List.forall_mem_singleton.2 (Json.wellFormed_array ?_))
    refine List.forall_mem_cons.2 ⟨Element.wellFormed_toJson _, List.forall_mem_singleton.2 ?_⟩
    exact Json.wellFormed_record (List.forall_mem_singleton.2 (Json.wellFormed_natural 17))
  have htext : json.toText =
      "\x7b\"elements\":[\x7b\"Op\":\"Dup\"\x7d,\x7b\"Number\":17\x7d]\x7d" := by
    decide +kernel
  have hread := Json.read?_toText hform
  rw [htext] at hread
  refine json_form.2.2 _ json [dup] [] (.natural 17) hread
    (@Json.HasElements.object [] [] _ (by simp)) ?_
  rintro n - hle ⟨lexeme, heq, hdigits⟩
  cases heq
  rw [Text.Decimal.read?_toString, Option.some_inj] at hdigits
  omega

end UtxoScript
