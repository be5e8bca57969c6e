import JavaSyntax.Token.Kind

/-!
# Sets of token kinds

A set of kinds is one bit per kind. Two sets with the same members are equal,
so sets can be compared as values.
-/

namespace JavaSyntax

/-- A set of token kinds, one bit per kind in declaration order. -/
structure TokenSet where
  bits : BitVec TokenKind.count
  deriving DecidableEq, Repr

namespace TokenSet

/-- The set without members. -/
def empty : TokenSet :=
  ⟨0⟩

/-- The set whose only member is `kind`. -/
def singleton (kind : TokenKind) : TokenSet :=
  ⟨BitVec.twoPow TokenKind.count kind.index⟩

/-- The members of either set. -/
def union (left right : TokenSet) : TokenSet :=
  ⟨left.bits ||| right.bits⟩

/-- The set of the listed kinds. -/
def ofList (kinds : List TokenKind) : TokenSet :=
  kinds.foldl (fun members kind => members.union (singleton kind)) empty

/-- Whether `kind` is a member. -/
def contains (members : TokenSet) (kind : TokenKind) : Bool :=
  members.bits.getLsbD kind.index

/-- Whether there are no members. -/
def isEmpty (members : TokenSet) : Bool :=
  members.bits == 0

/-- The members in declaration order. -/
def toList (members : TokenSet) : List TokenKind :=
  TokenKind.all.filter members.contains

instance : Union TokenSet := ⟨union⟩

@[simp] theorem contains_empty (kind : TokenKind) : empty.contains kind = false := by
  simp [empty, contains]

@[simp] theorem contains_union (left right : TokenSet) (kind : TokenKind) :
    (left.union right).contains kind = (left.contains kind || right.contains kind) := by
  simp [union, contains]

@[simp] theorem contains_singleton (member kind : TokenKind) :
    (singleton member).contains kind = decide (member = kind) := by
  have bounded := member.index_lt_count
  simp only [singleton, contains, BitVec.getLsbD_twoPow, bounded, decide_true, Bool.true_and]
  exact decide_eq_decide.mpr ⟨TokenKind.index_injective, congrArg _⟩

/-- Folding kinds into a set adds exactly those kinds. -/
theorem contains_foldl (kinds : List TokenKind) (members : TokenSet) (kind : TokenKind) :
    (kinds.foldl (fun members kind => members.union (singleton kind)) members).contains kind =
      (members.contains kind || decide (kind ∈ kinds)) := by
  induction kinds generalizing members with
  | nil => simp
  | cons first rest ih =>
      rw [List.foldl_cons, ih, contains_union, contains_singleton]
      by_cases same : first = kind
      · simp [same]
      · simp [same, Ne.symm same]

@[simp] theorem contains_ofList (kinds : List TokenKind) (kind : TokenKind) :
    (ofList kinds).contains kind = decide (kind ∈ kinds) := by
  simp [ofList, contains_foldl]

@[simp] theorem mem_toList (members : TokenSet) (kind : TokenKind) :
    kind ∈ members.toList ↔ members.contains kind = true := by
  simp [toList, TokenKind.mem_all]

end TokenSet

end JavaSyntax
