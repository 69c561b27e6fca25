import UtxoScript.Proofs.Json.Token

/-!
# Values, written and read

A value that is written is read as the same value, however deep it is: this is the main statement,
`read?_toText`. The tokens of a value take the reader from where a value has to come to where the
value has been put (`readsAs`), whatever is open around it, and no two of them that stand side by
side are words (`apart_tokens`).
-/

namespace UtxoScript.Json

/-- What holds of arrays and objects if it holds of what is in them holds of every value. -/
@[elab_as_elim] theorem induction {motive : Json → Prop} (null : motive .null)
    (bool : ∀ b, motive (.bool b)) (number : ∀ lexeme, motive (.number lexeme))
    (text : ∀ content, motive (.text content))
    (array : ∀ items, (∀ item ∈ items, motive item) → motive (.array items))
    (object : ∀ members, (∀ member ∈ members, motive member.2) → motive (.object members))
    (json : Json) : motive json :=
  match json with
  | .null => null
  | .bool b => bool b
  | .number lexeme => number lexeme
  | .text content => text content
  | .array items => array items fun item _ => induction null bool number text array object item
  | .object members =>
    object members fun member _ => induction null bool number text array object member.2
termination_by sizeOf json
decreasing_by
  · exact sizeOf_item_lt ‹_›
  · exact sizeOf_member_lt ‹_›

/-! ## Tokens of a value -/

/-- The tokens of an array. -/
theorem tokens_array (items : List Json) :
    (array items).tokens =
      .openArray :: ([Token.comma].intercalate (items.map tokens) ++ [.closeArray]) := by
  rw [tokens]

/-- The tokens of a member. -/
def memberTokens (member : Option String × Json) : List Token :=
  .text member.1 :: .colon :: member.2.tokens

/-- The tokens of an object. -/
theorem tokens_object (members : List (Option String × Json)) :
    (object members).tokens =
      .openObject :: ([Token.comma].intercalate (members.map memberTokens) ++ [.closeObject]) := by
  rw [tokens]
  rfl

/-- The tokens of a value begin with one that does not end an array. -/
theorem exists_tokens_eq_cons (json : Json) :
    ∃ first rest, json.tokens = first :: rest ∧ first ≠ .closeArray := by
  cases json with
  | null => exact ⟨_, _, by rw [tokens], by simp⟩
  | bool b => exact ⟨_, _, by rw [tokens], by simp⟩
  | number lexeme => exact ⟨_, _, by rw [tokens], by simp⟩
  | text content => exact ⟨_, _, by rw [tokens], by simp⟩
  | array items => exact ⟨_, _, tokens_array items, by simp⟩
  | object members => exact ⟨_, _, tokens_object members, by simp⟩

/-! ## Words apart -/

/-- A token that is no word stands apart from what follows. -/
theorem Token.Apart.cons {token : Token} {tokens : List Token} (htoken : token.isWord = false)
    (h : Token.Apart tokens) : Token.Apart (token :: tokens) := by
  refine List.isChain_cons.2 ⟨?_, h⟩
  intro next _ hword
  rw [htoken] at hword
  contradiction

/-- A token that is no word keeps what precedes it apart from what follows. -/
theorem Token.Apart.append_cons {front : List Token} {token : Token} {rest : List Token}
    (hfront : Token.Apart front) (htoken : token.isWord = false) (hrest : Token.Apart rest) :
    Token.Apart (front ++ token :: rest) := by
  refine List.isChain_append.2 ⟨hfront, hrest.cons htoken, ?_⟩
  rintro last - next ⟨⟩ -
  exact htoken

/-- Commas keep what they separate apart. -/
theorem Token.Apart.intercalate {parts : List (List Token)}
    (h : ∀ part ∈ parts, Token.Apart part) : Token.Apart ([Token.comma].intercalate parts) := by
  induction parts with
  | nil => exact List.IsChain.nil
  | cons part rest ih =>
    rw [List.forall_mem_cons] at h
    cases rest with
    | nil =>
      rw [List.intercalate_singleton]
      exact h.1
    | cons next rest =>
      rw [List.intercalate_cons_cons, List.append_assoc]
      exact h.1.append_cons rfl (ih h.2)

/-- No two tokens of a value that stand side by side are words. -/
theorem apart_tokens (json : Json) : Token.Apart json.tokens := by
  induction json using Json.induction with
  | null => rw [tokens]; exact List.IsChain.singleton _
  | bool b => rw [tokens]; exact List.IsChain.singleton _
  | number lexeme => rw [tokens]; exact List.IsChain.singleton _
  | text content => rw [tokens]; exact List.IsChain.singleton _
  | array items ih =>
    rw [tokens_array]
    refine Token.Apart.cons rfl (Token.Apart.append_cons (.intercalate ?_) rfl List.IsChain.nil)
    exact List.forall_mem_map.2 ih
  | object members ih =>
    rw [tokens_object]
    refine Token.Apart.cons rfl (Token.Apart.append_cons (.intercalate ?_) rfl List.IsChain.nil)
    refine List.forall_mem_map.2 fun member hmember => ?_
    exact .cons rfl (.cons rfl (ih member hmember))

/-! ## Reading the tokens of a value -/

/-- The tokens of a value are read as the value. -/
def ReadsAs (json : Json) : Prop :=
  ∀ frames, json.tokens.foldlM take (.reading .value frames) = put json frames

/-- What stands between commas is put into what is open one after the other, if each part is, and if
the comma leads from a part to where the next one has to come. -/
theorem foldlM_take_intercalate {α : Type} {partTokens : α → List Token} {frame : List α → Frame}
    {start : Expect} {parts : List α}
    (hcomma : ∀ done frames, take (.reading .separator (frame done :: frames)) .comma =
      some (.reading start (frame done :: frames)))
    (hparts : ∀ part ∈ parts, ∀ done frames,
      (partTokens part).foldlM take (.reading start (frame done :: frames)) =
        some (.reading .separator (frame (part :: done) :: frames)))
    (hne : parts ≠ []) (done : List α) (frames : List Frame) :
    ([Token.comma].intercalate (parts.map partTokens)).foldlM take
        (.reading start (frame done :: frames)) =
      some (.reading .separator (frame (parts.reverse ++ done) :: frames)) := by
  induction parts generalizing done with
  | nil => contradiction
  | cons part rest ih =>
    rw [List.forall_mem_cons] at hparts
    cases rest with
    | nil =>
      rw [List.map_singleton, List.intercalate_singleton, hparts.1]
      rfl
    | cons next rest =>
      rw [List.map_cons, List.map_cons, List.intercalate_cons_cons, List.append_assoc,
        List.foldlM_append, hparts.1, List.reverse_cons, List.append_assoc, Option.bind_eq_bind,
        Option.bind_some, List.singleton_append, List.foldlM_cons, hcomma]
      exact ih hparts.2 (List.cons_ne_nil _ _) (part :: done)

/-- The items of an array are read from where the first of them or the end may come. -/
theorem foldlM_take_array {items : List Json} (hitems : ∀ item ∈ items, item.ReadsAs)
    (frames : List Frame) :
    ([Token.comma].intercalate (items.map tokens) ++ [Token.closeArray]).foldlM take
        (.reading .item (.array [] :: frames)) =
      put (.array items) frames := by
  have hput := @foldlM_take_intercalate _ tokens .array .value items (fun _ _ => rfl)
    fun item h done frames => hitems item h (.array done :: frames)
  cases items with
  | nil => exact bind_pure _
  | cons item rest =>
    -- What the items begin with is no end of the array, so it is taken as a value is.
    have hstart :
        ([Token.comma].intercalate ((item :: rest).map tokens)).foldlM take
            (.reading .item (.array [] :: frames)) =
          ([Token.comma].intercalate ((item :: rest).map tokens)).foldlM take
            (.reading .value (.array [] :: frames)) := by
      obtain ⟨first, tail, htokens, hfirst⟩ := exists_tokens_eq_cons item
      have htake : take (.reading .item (.array [] :: frames)) first =
          take (.reading .value (.array [] :: frames)) first := by
        cases first <;> first | contradiction | rfl
      rw [List.map_cons, htokens, List.intercalate_cons_cons_left, List.foldlM_cons,
        List.foldlM_cons, htake]
    rw [List.foldlM_append, hstart, hput (List.cons_ne_nil _ _), List.append_nil]
    have hclose : take (.reading .separator (.array (item :: rest).reverse :: frames)) .closeArray =
        put (.array (item :: rest)) frames :=
      congrArg (fun items => put (.array items) frames) (List.reverse_reverse (item :: rest))
    rw [← hclose]
    exact bind_pure (take _ Token.closeArray)

/-- The members of an object are read from where the first of them or the end may come. -/
theorem foldlM_take_object {members : List (Option String × Json)}
    (hmembers : ∀ member ∈ members, member.2.ReadsAs) (frames : List Frame) :
    ([Token.comma].intercalate (members.map memberTokens) ++ [Token.closeObject]).foldlM take
        (.reading .member (.object [] :: frames)) =
      put (.object members) frames := by
  -- Of the tokens of a member the text is its key, and the colon leads to its value.
  have hput := @foldlM_take_intercalate _ memberTokens .object .key members (fun _ _ => rfl)
    fun member h done frames => hmembers member h (.member member.1 :: .object done :: frames)
  cases members with
  | nil => exact bind_pure _
  | cons member rest =>
    have hstart :
        ([Token.comma].intercalate ((member :: rest).map memberTokens)).foldlM take
            (.reading .member (.object [] :: frames)) =
          ([Token.comma].intercalate ((member :: rest).map memberTokens)).foldlM take
            (.reading .key (.object [] :: frames)) := by
      rw [List.map_cons, memberTokens, List.intercalate_cons_cons_left]
      rfl
    rw [List.foldlM_append, hstart, hput (List.cons_ne_nil _ _), List.append_nil]
    have hclose :
        take (.reading .separator (.object (member :: rest).reverse :: frames)) .closeObject =
          put (.object (member :: rest)) frames :=
      congrArg (fun members => put (.object members) frames) (List.reverse_reverse (member :: rest))
    rw [← hclose]
    exact bind_pure (take _ Token.closeObject)

/-- A value of one token is read as what the token is. -/
theorem readsAs_of_tokens_eq {json : Json} {token : Token} (htokens : json.tokens = [token])
    (htake : ∀ frames, take (.reading .value frames) token = put json frames) : json.ReadsAs := by
  intro frames
  rw [htokens, ← htake]
  exact bind_pure _

/-- The tokens of every value are read as the value. -/
theorem readsAs (json : Json) : json.ReadsAs := by
  induction json using Json.induction with
  | null => exact readsAs_of_tokens_eq (by rw [tokens]) fun _ => rfl
  | bool b => exact readsAs_of_tokens_eq (by rw [tokens]) fun _ => rfl
  | number lexeme => exact readsAs_of_tokens_eq (by rw [tokens]) fun _ => rfl
  | text content => exact readsAs_of_tokens_eq (by rw [tokens]) fun _ => rfl
  | array items ih =>
    intro frames
    rw [tokens_array]
    exact foldlM_take_array ih frames
  | object members ih =>
    intro frames
    rw [tokens_object]
    exact foldlM_take_object ih frames

/-- The numbers in a value have the form of numbers. -/
def WellFormed (json : Json) : Prop := ∀ token ∈ json.tokens, token.WellFormed

/-- Commas and what they separate have the form of tokens. -/
theorem Token.wellFormed_of_mem_intercalate {parts : List (List Token)}
    (h : ∀ part ∈ parts, ∀ token ∈ part, token.WellFormed) :
    ∀ token ∈ [Token.comma].intercalate parts, token.WellFormed := by
  induction parts with
  | nil => simp
  | cons part rest ih =>
    rw [List.forall_mem_cons] at h
    cases rest with
    | nil =>
      rw [List.intercalate_singleton]
      exact h.1
    | cons next rest =>
      rw [List.intercalate_cons_cons, List.append_assoc, List.forall_mem_append,
        List.forall_mem_append, List.forall_mem_singleton]
      exact ⟨h.1, trivial, ih h.2⟩

/-- The numbers of an array are those of its items. -/
theorem wellFormed_array {items : List Json} (h : ∀ item ∈ items, item.WellFormed) :
    (array items).WellFormed := by
  have hitems := Token.wellFormed_of_mem_intercalate (List.forall_mem_map.2 h)
  unfold WellFormed
  rw [tokens_array, List.forall_mem_cons, List.forall_mem_append, List.forall_mem_singleton]
  exact ⟨trivial, hitems, trivial⟩

/-- The numbers of an object are those of its members. -/
theorem wellFormed_object {members : List (Option String × Json)}
    (h : ∀ member ∈ members, member.2.WellFormed) : (object members).WellFormed := by
  have hmembers : ∀ part ∈ members.map memberTokens, ∀ token ∈ part, token.WellFormed := by
    refine List.forall_mem_map.2 fun member hmember => ?_
    rw [memberTokens, List.forall_mem_cons, List.forall_mem_cons]
    exact ⟨trivial, trivial, h member hmember⟩
  unfold WellFormed
  rw [tokens_object, List.forall_mem_cons, List.forall_mem_append, List.forall_mem_singleton]
  exact ⟨trivial, Token.wellFormed_of_mem_intercalate hmembers, trivial⟩

/-- A natural number has the form of a number. -/
theorem wellFormed_natural (n : Nat) : (natural n).WellFormed := by
  unfold WellFormed
  rw [natural, tokens, List.forall_mem_singleton]
  exact Token.isNumber_toString n

/-- There are no numbers in a string. -/
theorem wellFormed_string (s : String) : (string s).WellFormed := by
  unfold WellFormed
  rw [string, tokens, List.forall_mem_singleton]
  trivial

/-- The numbers of a record are those of its members. -/
theorem wellFormed_record {members : List (String × Json)}
    (h : ∀ member ∈ members, member.2.WellFormed) : (record members).WellFormed :=
  wellFormed_object (List.forall_mem_map.2 h)

/-- A value is read as it was written. -/
theorem read?_toText {json : Json} (h : json.WellFormed) : read? json.toText = some json := by
  have htokens : ofTokens? json.tokens = some json := by
    rw [ofTokens?, json.readsAs []]
    rfl
  rw [read?, toText, String.toList_ofList, Token.lex_flatMap_write h json.apart_tokens,
    Option.bind_some, htokens]

end UtxoScript.Json
