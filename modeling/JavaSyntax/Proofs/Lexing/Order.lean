import JavaSyntax.Token.Lexing

/-!
# The order of tokens

The tokens of a source text stand in order: no two start at the same place, none reaches
into the next one, and the last one is the end mark at the end of the text.
-/

namespace JavaSyntax.Token

/-- A token that was written takes up some place. -/
theorem start_lt_stop_written (kind : TokenKind) (first : Char) (rest : List Char) (offset : Nat) :
    offset < (written kind (String.ofList (first :: rest)) offset).stop := by
  have size : (written kind (String.ofList (first :: rest)) offset).stop =
      offset + (String.ofList (first :: rest)).utf8ByteSize := rfl
  have some : 0 < (String.ofList (first :: rest)).utf8ByteSize := by
    rw [String.ofList_cons, String.utf8ByteSize_append, String.utf8ByteSize_singleton]
    have least := first.utf8Size_pos
    omega
  omega

theorem lexFrom_increasing {before : List Token} {offset : Nat} {text : List Char}
    {tokens : List Token} (read : lexFrom before offset text = .ok tokens)
    (ordered : before.Pairwise fun later earlier => earlier.start < later.start)
    (bounded : ∀ token ∈ before, token.start < offset) :
    tokens.Pairwise (fun earlier later => earlier.start < later.start) ∧
      tokens.getLast?.map Token.kind = some .eof := by
  fun_induction lexFrom before offset text with
  | case1 before offset =>
      obtain rfl := Except.ok.inj read
      refine ⟨?_, by simp [endMark]⟩
      rw [List.pairwise_reverse, List.pairwise_cons]
      exact ⟨bounded, ordered⟩
  | case2 before offset first rest length scanned ih =>
      refine ih read ordered ?_
      intro token member
      exact Nat.lt_add_right _ (bounded token member)
  | case3 before offset first rest kind length scanned token ih =>
      have further : offset < token.stop := start_lt_stop_written kind first _ offset
      refine ih read (List.pairwise_cons.mpr ⟨bounded, ordered⟩) ?_
      intro other member
      cases member with
      | head => exact further
      | tail _ member => exact Nat.lt_trans (bounded other member) further
  | case4 => cases read

/-- The tokens of a source text stand in order and end with a mark. -/
theorem lex_increasing {source : String} {tokens : List Token} (read : lex source = .ok tokens) :
    tokens.Pairwise (fun earlier later => earlier.start < later.start) ∧
      tokens.getLast?.map Token.kind = some .eof :=
  lexFrom_increasing read .nil (by simp)

/-- The bytes of a text are those of its string. -/
theorem byteLength_eq (text : List Char) : byteLength text = (String.ofList text).utf8ByteSize := by
  have total (before : Nat) :
      text.foldl (fun total character => total + character.utf8Size) before =
        before + (String.ofList text).utf8ByteSize := by
    induction text generalizing before with
    | nil => simp
    | cons first rest ih =>
        rw [List.foldl_cons, ih, String.ofList_cons, String.utf8ByteSize_append,
          String.utf8ByteSize_singleton, Nat.add_assoc]
  rw [byteLength, total, Nat.zero_add]

theorem byteLength_append (left right : List Char) :
    byteLength (left ++ right) = byteLength left + byteLength right := by
  rw [byteLength_eq, byteLength_eq, byteLength_eq, String.ofList_append,
    String.utf8ByteSize_append]

/-- A text is as long as what is read of it and what remains. -/
theorem byteLength_split (first : Char) (rest : List Char) (length : Nat) :
    byteLength (first :: rest.take length) + byteLength (rest.drop length) =
      byteLength (first :: rest) := by
  rw [← byteLength_append, List.cons_append, List.take_append_drop]

theorem lexFrom_apart {before : List Token} {offset : Nat} {text : List Char}
    {tokens : List Token} (read : lexFrom before offset text = .ok tokens)
    (ordered : before.Pairwise fun later earlier => earlier.stop ≤ later.start)
    (bounded : ∀ token ∈ before, token.stop ≤ offset) :
    tokens.Pairwise (fun earlier later => earlier.stop ≤ later.start) ∧
      tokens.getLast? = some (.endMark (offset + byteLength text)) := by
  fun_induction lexFrom before offset text with
  | case1 before offset =>
      obtain rfl := Except.ok.inj read
      refine ⟨?_, by simp [byteLength]⟩
      rw [List.pairwise_reverse, List.pairwise_cons]
      exact ⟨bounded, ordered⟩
  | case2 before offset first rest length scanned ih =>
      rw [← byteLength_split first rest (length - 1), ← Nat.add_assoc]
      refine ih read ordered ?_
      intro token member
      exact Nat.le_add_right_of_le (bounded token member)
  | case3 before offset first rest kind length scanned token ih =>
      have stops : token.stop = offset + byteLength (first :: rest.take (length - 1)) := by
        rw [byteLength_eq]
        rfl
      rw [← byteLength_split first rest (length - 1), ← Nat.add_assoc, ← stops]
      refine ih read (List.pairwise_cons.mpr ⟨bounded, ordered⟩) ?_
      intro other member
      cases member with
      | head => exact Nat.le_refl _
      | tail _ member =>
          have earlier := bounded other member
          omega
  | case4 => cases read

/-- No token of a source text reaches into the next one, and the mark that ends them stands
at the end of the text. -/
theorem lex_apart {source : String} {tokens : List Token} (read : lex source = .ok tokens) :
    tokens.Pairwise (fun earlier later => earlier.stop ≤ later.start) ∧
      tokens.getLast? = some (.endMark source.utf8ByteSize) := by
  have apart := lexFrom_apart read .nil (by simp)
  rwa [Nat.zero_add, byteLength_eq, String.ofList_toList] at apart

end JavaSyntax.Token
