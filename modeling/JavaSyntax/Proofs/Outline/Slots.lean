import JavaSyntax.Proofs.Reading.Moves

/-!
# Outlines of states

An outline says what is known of a state without looking at it: what the last
slots of the frame may be, and of which kinds the next tokens are.  There is no
slot for a token that was made up, so outlines describe readings without
recovery.
-/

namespace JavaSyntax

namespace TokenSet

/-- The set of all kinds. -/
def full : TokenSet :=
  ⟨.allOnes TokenKind.count⟩

/-- The common members of two sets. -/
def inter (left right : TokenSet) : TokenSet :=
  ⟨left.bits &&& right.bits⟩

/-- The kinds that are no members. -/
def compl (members : TokenSet) : TokenSet :=
  ⟨~~~members.bits⟩

@[simp] theorem contains_full (kind : TokenKind) : full.contains kind = true := by
  simpa [full, contains] using kind.index_lt_count

@[simp] theorem contains_inter (left right : TokenSet) (kind : TokenKind) :
    (left.inter right).contains kind = (left.contains kind && right.contains kind) := by
  simp [inter, contains]

@[simp] theorem contains_compl (members : TokenSet) (kind : TokenKind) :
    members.compl.contains kind = !members.contains kind := by
  have bounded := kind.index_lt_count
  simp [compl, contains, bounded]

/-- Whether all members belong to another set. -/
def within (members others : TokenSet) : Bool :=
  members.union others == others

theorem contains_of_within {members others : TokenSet} {kind : TokenKind}
    (inside : members.within others = true) (member : members.contains kind = true) :
    others.contains kind = true := by
  have same : members.union others = others := by simpa [within] using inside
  rw [← same, contains_union, member, Bool.true_or]

end TokenSet

/-- A set of node kinds, one bit per kind in declaration order. -/
structure NodeSet where
  bits : Nat
  deriving DecidableEq

namespace NodeSet

/-- Whether `kind` is a member. -/
def contains (members : NodeSet) (kind : NodeKind) : Bool :=
  members.bits.testBit kind.index

/-- The set of the listed kinds. -/
def ofList (kinds : List NodeKind) : NodeSet :=
  ⟨kinds.foldr (fun kind bits => 1 <<< kind.index ||| bits) 0⟩

/-- The members of either set. -/
def union (left right : NodeSet) : NodeSet :=
  ⟨left.bits ||| right.bits⟩

/-- The common members of two sets. -/
def inter (left right : NodeSet) : NodeSet :=
  ⟨left.bits &&& right.bits⟩

/-- Whether all members belong to another set. -/
def within (members others : NodeSet) : Bool :=
  members.union others == others

@[simp] theorem contains_union (left right : NodeSet) (kind : NodeKind) :
    (left.union right).contains kind = (left.contains kind || right.contains kind) :=
  Nat.testBit_or ..

@[simp] theorem contains_inter (left right : NodeSet) (kind : NodeKind) :
    (left.inter right).contains kind = (left.contains kind && right.contains kind) :=
  Nat.testBit_and ..

theorem index_injective {left right : NodeKind} (same : left.index = right.index) :
    left = right := by
  have indexed : ∀ kind : NodeKind, NodeKind.all[kind.index]? = some kind := by
    intro kind
    cases kind <;> rfl
  have found := indexed left
  rw [same, indexed right] at found
  exact (Option.some.inj found).symm

@[simp] theorem contains_ofList (kinds : List NodeKind) (kind : NodeKind) :
    (ofList kinds).contains kind = decide (kind ∈ kinds) := by
  induction kinds with
  | nil => simp [ofList, contains]
  | cons first others ih =>
      have split : ofList (first :: others) = union ⟨1 <<< first.index⟩ (ofList others) := rfl
      have alone : contains ⟨1 <<< first.index⟩ kind = decide (kind = first) := by
        rw [contains, Nat.one_shiftLeft, Nat.testBit_two_pow]
        exact decide_eq_decide.mpr ⟨fun same => (index_injective same).symm, fun same => same ▸ rfl⟩
      rw [split, contains_union, ih, alone]
      simp

theorem contains_of_within {members others : NodeSet} {kind : NodeKind}
    (inside : members.within others = true) (member : members.contains kind = true) :
    others.contains kind = true := by
  have same : members.union others = others := by simpa [within] using inside
  rw [← same, contains_union, member, Bool.true_or]

end NodeSet

/-- What may stand in one slot: tokens of some kinds, nodes of some kinds, or nothing. -/
structure Slot where
  tokens : TokenSet
  nodes : NodeSet
  absent : Bool
  deriving DecidableEq

namespace Slot

/-- Whether an element may stand in the slot. -/
def admits (slot : Slot) : Element → Bool
  | .node kind _ _ => slot.nodes.contains kind
  | .token found => slot.tokens.contains found.kind
  | .missing _ _ => false
  | .absent => slot.absent

/-- A token of one of some kinds. -/
def ofTokens (kinds : TokenSet) : Slot :=
  ⟨kinds, ⟨0⟩, false⟩

/-- A node of one of some kinds. -/
def ofNodes (kinds : List NodeKind) : Slot :=
  ⟨.empty, .ofList kinds, false⟩

/-- No element at all. -/
def ofAbsent : Slot :=
  ⟨.empty, ⟨0⟩, true⟩

/-- The slot in which nothing may stand. -/
def never : Slot :=
  ⟨.empty, ⟨0⟩, false⟩

/-- What may stand in either slot. -/
def join (left right : Slot) : Slot :=
  ⟨left.tokens.union right.tokens, left.nodes.union right.nodes, left.absent || right.absent⟩

/-- What may stand in both slots. -/
def meet (left right : Slot) : Slot :=
  ⟨left.tokens.inter right.tokens, left.nodes.inter right.nodes, left.absent && right.absent⟩

/-- Whether all that may stand in one slot may stand in another. -/
def within (left right : Slot) : Bool :=
  left.tokens.within right.tokens && left.nodes.within right.nodes &&
    (!left.absent || right.absent)

theorem admits_of_within {left right : Slot} (inside : left.within right = true)
    {element : Element} (admitted : left.admits element = true) :
    right.admits element = true := by
  simp only [within, Bool.and_eq_true] at inside
  obtain ⟨⟨tokens, nodes⟩, absent⟩ := inside
  cases element with
  | node kind span children => exact NodeSet.contains_of_within nodes admitted
  | token found => exact TokenSet.contains_of_within tokens admitted
  | missing expected span => cases admitted
  | absent =>
      have here : left.absent = true := admitted
      simpa [admits, here] using absent

theorem admits_join (left right : Slot) (element : Element) :
    (left.join right).admits element = (left.admits element || right.admits element) := by
  cases element with
  | node kind span children => exact NodeSet.contains_union ..
  | token found => exact TokenSet.contains_union ..
  | missing expected span => rfl
  | absent => rfl

theorem admits_meet (left right : Slot) (element : Element) :
    (left.meet right).admits element = (left.admits element && right.admits element) := by
  cases element with
  | node kind span children => exact NodeSet.contains_inter ..
  | token found => exact TokenSet.contains_inter ..
  | missing expected span => rfl
  | absent => rfl

theorem admits_never (element : Element) : never.admits element = false := by
  cases element with
  | node kind span children => exact Nat.zero_testBit _
  | token found => exact TokenSet.contains_empty _
  | missing expected span => rfl
  | absent => rfl

end Slot

/-- A part of a frame: one slot, or any number of slots of one form. -/
inductive Part where
  | one (slot : Slot)
  | run (slot : Slot)
  deriving DecidableEq

/-- What a part says of each of its slots. -/
def Part.slot : Part → Slot
  | .one slot => slot
  | .run slot => slot

/-- Slots that are made of some parts, in the same order. -/
inductive Fits : List Part → List Element → Prop where
  | nil : Fits [] []
  | one {slot : Slot} {parts : List Part} {element : Element} {elements : List Element} :
      slot.admits element = true → Fits parts elements →
        Fits (.one slot :: parts) (element :: elements)
  | done {slot : Slot} {parts : List Part} {elements : List Element} :
      Fits parts elements → Fits (.run slot :: parts) elements
  | more {slot : Slot} {parts : List Part} {element : Element} {elements : List Element} :
      slot.admits element = true → Fits (.run slot :: parts) elements →
        Fits (.run slot :: parts) (element :: elements)

namespace Fits

theorem append {parts below : List Part} {elements lower : List Element}
    (top : Fits parts elements) (rest : Fits below lower) :
    Fits (parts ++ below) (elements ++ lower) := by
  induction top with
  | nil => exact rest
  | one admitted _ ih => exact .one admitted ih
  | done _ ih => exact .done ih
  | more admitted _ ih => exact .more admitted ih

theorem of_cons_one {slot : Slot} {parts : List Part} {elements : List Element}
    (fits : Fits (.one slot :: parts) elements) :
    ∃ element lower, elements = element :: lower ∧ slot.admits element = true ∧
      Fits parts lower := by
  cases fits with
  | one admitted rest => exact ⟨_, _, rfl, admitted, rest⟩

theorem of_single {slot : Slot} {elements : List Element} (fits : Fits [.one slot] elements) :
    ∃ element, elements = [element] ∧ slot.admits element = true := by
  obtain ⟨element, lower, rfl, admitted, rest⟩ := fits.of_cons_one
  cases rest
  exact ⟨element, rfl, admitted⟩

/-- Slots below a run are those of a run or of the parts below it. -/
theorem run_append {slot : Slot} {parts : List Part} {top lower : List Element}
    (admitted : ∀ element ∈ top, slot.admits element = true)
    (rest : Fits (.run slot :: parts) lower) : Fits (.run slot :: parts) (top ++ lower) := by
  induction top with
  | nil => exact rest
  | cons element top ih =>
      refine .more (admitted element List.mem_cons_self) (ih ?_)
      intro other member
      exact admitted other (List.mem_cons_of_mem _ member)

/-- A run may be taken into a wider one that the parts below it are part of as well. -/
theorem run_absorb {slot wider : Slot} {parts looser : List Part} {elements : List Element}
    (widens : ∀ element, slot.admits element = true → wider.admits element = true)
    (loosens : ∀ lower, Fits parts lower → Fits (.run wider :: looser) lower)
    (fits : Fits (.run slot :: parts) elements) : Fits (.run wider :: looser) elements := by
  generalize whole : Part.run slot :: parts = all at fits
  induction fits with
  | nil | one => cases whole
  | done rest =>
      cases whole
      exact loosens _ rest
  | more admitted _ ih =>
      cases whole
      exact .more (widens _ admitted) (ih rfl)

/-- A run and the parts below it may be replaced by ones that say less. -/
theorem run_imp {slot wider : Slot} {parts looser : List Part} {elements : List Element}
    (widens : ∀ element, slot.admits element = true → wider.admits element = true)
    (loosens : ∀ lower, Fits parts lower → Fits looser lower)
    (fits : Fits (.run slot :: parts) elements) : Fits (.run wider :: looser) elements :=
  fits.run_absorb widens fun lower rest => .done (loosens lower rest)

/-- Each slot is one of some part. -/
theorem admits_of_mem {parts : List Part} {elements : List Element} (fits : Fits parts elements)
    {element : Element} (member : element ∈ elements) :
    ∃ part ∈ parts, part.slot.admits element = true := by
  induction fits with
  | nil => cases member
  | one admitted _ ih =>
      cases member with
      | head => exact ⟨_, List.mem_cons_self, admitted⟩
      | tail _ below =>
          obtain ⟨part, known, holds⟩ := ih below
          exact ⟨part, List.mem_cons_of_mem _ known, holds⟩
  | done _ ih =>
      obtain ⟨part, known, holds⟩ := ih member
      exact ⟨part, List.mem_cons_of_mem _ known, holds⟩
  | more admitted _ ih =>
      cases member with
      | head => exact ⟨_, List.mem_cons_self, admitted⟩
      | tail _ below => exact ih below

theorem of_append {parts below : List Part} {elements : List Element}
    (fits : Fits (parts ++ below) elements) :
    ∃ top lower, elements = top ++ lower ∧ Fits parts top ∧ Fits below lower := by
  generalize whole : parts ++ below = all at fits
  induction fits generalizing parts with
  | nil =>
      obtain ⟨rfl, rfl⟩ := List.append_eq_nil_iff.mp whole
      exact ⟨[], [], rfl, .nil, .nil⟩
  | @one slot others element elements admitted rest ih =>
      cases parts with
      | nil =>
          cases whole
          exact ⟨[], _, rfl, .nil, .one admitted rest⟩
      | cons part parts =>
          cases whole
          obtain ⟨top, lower, rfl, upper, under⟩ := ih rfl
          exact ⟨element :: top, lower, rfl, .one admitted upper, under⟩
  | @done slot others elements rest ih =>
      cases parts with
      | nil =>
          cases whole
          exact ⟨[], _, rfl, .nil, .done rest⟩
      | cons part parts =>
          cases whole
          obtain ⟨top, lower, rfl, upper, under⟩ := ih rfl
          exact ⟨top, lower, rfl, .done upper, under⟩
  | @more slot others element elements admitted rest ih =>
      cases parts with
      | nil =>
          cases whole
          exact ⟨[], _, rfl, .nil, .more admitted rest⟩
      | cons part parts =>
          obtain ⟨top, lower, rfl, upper, under⟩ := ih whole
          cases whole
          exact ⟨element :: top, lower, rfl, .more admitted upper, under⟩

/-- Parts and slots read backwards. -/
theorem reverse {parts : List Part} {elements : List Element} (fits : Fits parts elements) :
    Fits parts.reverse elements.reverse := by
  induction fits with
  | nil => exact .nil
  | one admitted _ ih =>
      rw [List.reverse_cons, List.reverse_cons]
      exact ih.append (.one admitted .nil)
  | done _ ih =>
      rw [List.reverse_cons]
      simpa using ih.append (.done .nil)
  | @more slot parts element elements admitted _ ih =>
      rw [List.reverse_cons] at ih ⊢
      obtain ⟨front, back, same, others, run⟩ := ih.of_append
      rw [List.reverse_cons, same, List.append_assoc]
      refine others.append (run_append ?_ (.more admitted (.done .nil)))
      intro other member
      obtain ⟨part, known, holds⟩ := run.admits_of_mem member
      rw [List.mem_singleton.mp known] at holds
      exact holds

end Fits

end JavaSyntax
