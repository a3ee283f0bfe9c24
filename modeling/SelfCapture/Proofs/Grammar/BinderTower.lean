import SelfCapture.Proofs.Grammar.FunctionReading
import SelfCapture.Proofs.Grammar.NameReading

/-! # Towers of binders are read back

  In `any any B` each `any` is a type around the one after it.  An alias for
  such a tower is read without complaint however high it is, and gives as
  many opaque types inside each other, `parse_tower`: the type after a
  binder is not counted as a nested one.
-/

namespace SelfCapture

open Token (Kind Name Word spellOut Legible)

/-! ## Section 1: How a tower is written -/

/-- The name at the foot of a tower. -/
def towerBase : TypeName := ⟨⟨['B'], by decide⟩, .inl (by decide +kernel)⟩

theorem kind_towerBase : towerBase.kind = .identifier := by decide +kernel

/-- A name with the given number of `any` before it. -/
def TypeSyntax.tower : (height : Nat) → TypeSyntax
  | 0 => .named towerBase []
  | height + 1 => .bound .any (tower height)

namespace TypeSyntax

theorem isPlain_tower (height : Nat) : (tower height).isPlain = true := by
  cases height <;> rfl

theorem readable_tower (height : Nat) : (tower height).readable = true := by
  induction height with
  | zero => rfl
  | succ height ih => rw [tower, readable, isPlain_tower, ih, Bool.and_self]

/-- Each binder of a tower takes at least one character. -/
theorem le_length_tower (height : Nat) (blank : Bool) :
    height ≤ (spellOut ((tower height).words blank) []).length := by
  induction height generalizing blank with
  | zero => exact Nat.zero_le _
  | succ height ih =>
    have hbase := ih true
    have hbinder : 0 < (Binder.any.name.word blank).spelling.length := by
      cases blank <;> decide
    rw [tower, words, spellOut, List.length_append]
    omega

end TypeSyntax

/-- An alias, `typealias name = T`. -/
structure AliasSyntax where
  name : Name
  type : TypeSyntax

namespace AliasSyntax

/-- The keyword of an alias. -/
def keyword : Name := ⟨"typealias".toList, by decide⟩

theorem kind_keyword : keyword.kind = .typealiasKeyword := by decide

def words (a : AliasSyntax) : List Word :=
  keyword.word false :: a.name.word true :: ⟨.equals, ['='], true⟩ :: a.type.words true

/-- The text of an alias. -/
def text (a : AliasSyntax) : String := String.ofList (spellOut a.words [])

theorem legible_words (a : AliasSyntax) (h : a.type.readable = true) : Legible a.words [] := by
  have htype : Legible (a.type.words true) [] := by
    have hall : Legible (a.type.words true ++ []) [] :=
      TypeSyntax.legible_words a.type true [] h trivial rfl
    rwa [List.append_nil] at hall
  have hblank : (spellOut (a.type.words true) []).head? = some ' ' := by
    have hall : spellOut (a.type.words true ++ []) [] = ' ' :: spellOut (a.type.words false ++ []) [] :=
      TypeSyntax.spellOut_words_true a.type [] h
    rw [List.append_nil] at hall
    rw [hall]
    rfl
  have hequals : Word.Valid ⟨.equals, ['='], true⟩ :=
    @Word.Valid.operator '=' [] (by decide) rfl true
  refine TypeSyntax.legible_name keyword false (by rfl) ?_
  refine TypeSyntax.legible_name a.name true (by rfl) ?_
  exact TypeSyntax.legible_cons hequals hblank (by decide) htype

end AliasSyntax

/-! ## Section 2: What a tower is read as -/

namespace Tree

variable {t t' : Tree} {id : Nat}

/-- The node is an opaque type, its base is one, and so on, as many as given. -/
def Stacks (t : Tree) : (height : Nat) → Nat → Prop
  | 0, _ => True
  | height + 1, id =>
    ∃ existential base, t.Formed (.opaqueType existential base) id ∧ t.Stacks height base

theorem Stacks.later {height : Nat} (h : t.Stacks height id) (ht : Continues t t') :
    t'.Stacks height id := by
  induction height generalizing id with
  | zero => trivial
  | succ height ih =>
    obtain ⟨existential, base, hform, hbase⟩ := h
    exact ⟨existential, base, hform.later ht, ih hbase⟩

/-- The node is an alias for a tower. -/
def ShowsTower (t : Tree) (height : Nat) (id : Nat) : Prop :=
  ∃ name type, t.Formed (.typeAlias name (some type)) id ∧ t.Stacks height type

theorem ShowsTower.later {height : Nat} (h : t.ShowsTower height id) (ht : Continues t t') :
    t'.ShowsTower height id := by
  obtain ⟨name, type, hform, hstacks⟩ := h
  exact ⟨name, type, hform.later ht, hstacks.later ht⟩

end Tree

namespace Grammar

variable {s : State} {words : List Word} {blank : Bool} {height count : Nat}

/-- The type after a binder is read in one phrase more, but not one level deeper. -/
theorem compositionType_tower (hcount : height ≤ count)
    (h : s.Faces ((TypeSyntax.tower height).words blank ++ words))
    (hwords : StartWith endsTypeName words) :
    Ensures (compositionType (reader count)) s fun id s' =>
      ReadsTo s [id] words s' ∧ s'.tree.Stacks height id := by
  -- Each binder takes one of the rounds, but the type after it is read at the same depth.
  induction height generalizing count s blank with
  | zero =>
    refine compositionType_primary (P := fun id s' => s'.tree.Stacks 0 id) ?_ hwords
    refine (primaryType_name h kind_towerBase hwords).mono fun id s₁ h₁ => ?_
    exact ⟨h₁.1, trivial⟩
  | succ height ih =>
    obtain ⟨less, rfl⟩ : ∃ less, count = less + 1 := ⟨count - 1, by omega⟩
    refine compositionType_primary (P := fun id s' => s'.tree.Stacks (height + 1) id) ?_ hwords
    have hfaces : s.Faces (Binder.any.name.word blank ::
        ((TypeSyntax.tower height).words true ++ words)) := h
    have hstart := (startsType_words (.tower height) true (TypeSyntax.readable_tower height)
      (isType_of_isPlain (TypeSyntax.isPlain_tower height))).append words
    unfold primaryType
    refine .peek (.peek ?_)
    rw [show (kind s).1 = .identifier from hfaces.kind_eq.trans Binder.any.kind_name]
    refine (atOpaque_binder hfaces hstart).bind fun found s₁ h₁ => ?_
    obtain ⟨rfl, rfl⟩ := h₁
    refine .peek ((advance_faces hfaces (Binder.any.name.kind_ne rfl)).bind fun _ s₂ h₂ => ?_)
    refine (show Ensures (reader (less + 1) .composition) s₂ _ from
      ih (Nat.le_of_succ_le_succ hcount) h₂.1.faces).bind fun base s₃ h₃ => ?_
    have hmade := finish_faces (.opaqueType (isWord "any" s₁).1 base) (h₂.1.append h₃.1)
      (by simp) trivial
    refine hmade.mono fun id s₄ h₄ => ⟨h₄.readsTo, _, base, h₄.formed, ?_⟩
    exact h₃.2.later h₄.continues

/-- A tower does not start with a specifier. -/
theorem alone_tower (height : Nat) (blank : Bool) (hwords : StartWith endsTypeName words) :
    Alone typeSpecifiers ((TypeSyntax.tower height).words blank ++ words) := by
  cases height with
  | zero => exact alone_name _ kind_towerBase hwords
  | succ height =>
    refine ⟨Binder.any.name.word blank, _, rfl, ?_, fun _ htext => ?_⟩
    · show startsPlain Binder.any.name.kind = true
      rw [Binder.kind_name]
      rfl
    · have hno : typeSpecifiers.contains (String.ofList Binder.any.name.chars) = false := by decide
      exact absurd (hno.symm.trans htext) Bool.false_ne_true

theorem type_tower (hcount : height ≤ count) (hdepth : s.depth < maxDepth)
    (h : s.Faces ((TypeSyntax.tower height).words blank ++ words))
    (hwords : StartWith endsTypeName words) :
    Ensures (type (reader count)) s fun id s' =>
      ReadsTo s [id] words s' ∧ s'.tree.Stacks height id := by
  refine type_plain (P := fun id t => t.Stacks height id) h (alone_tower height blank hwords) hdepth ?_
  exact compositionType_tower hcount h.deeper hwords

/-- An alias for a tower. -/
theorem typeAlias_tower {a : AliasSyntax} (htype : a.type = .tower height) (hcount : height ≤ count)
    (hdepth : s.depth < maxDepth) (h : s.Faces (a.words ++ words))
    (hwords : StartWith endsTypeName words) :
    Ensures (typeAliasDeclaration (reader (count + 1)) s.offset) s fun id s' =>
      ReadsTo s [id] words s' ∧ s'.tree.ShowsTower height id := by
  have hfaces : s.Faces (AliasSyntax.keyword.word false :: a.name.word true ::
      ⟨.equals, ['='], true⟩ :: (a.type.words true ++ words)) := h
  unfold typeAliasDeclaration
  refine (advance_faces hfaces (AliasSyntax.keyword.kind_ne rfl)).bind fun _ s₁ h₁ => ?_
  refine (nameOr_faces h₁.1.faces a.name.isName_kind _).bind fun name s₂ h₂ => ?_
  refine (skipBalanced_none h₂.1.faces (by decide)).bind fun _ s₃ h₃ => ?_
  subst h₃
  refine (expect_here h₂.1.faces rfl (by decide) _).bind fun found s₄ h₄ => ?_
  obtain ⟨rfl, hequals, -⟩ := h₄
  have hhead := (h₁.1.append h₂.1).skip hequals
  -- Only here does a phrase of its own begin, one level deeper.
  have htower : s₄.Faces ((TypeSyntax.tower height).words true ++ words) := htype ▸ hequals.faces
  have hlevel : s₄.depth < maxDepth := hhead.depth_eq.trans_lt hdepth
  have hread : Ensures (reader (count + 1) .type) s₄ fun id s' =>
      ReadsTo s₄ [id] words s' ∧ s'.tree.Stacks height id := type_tower hcount hlevel htower hwords
  have hsome : Ensures (some <$> reader (count + 1) .type) s₄ fun r s' =>
      ∃ type, r = some type ∧ ReadsTo s₄ [type] words s' ∧ s'.tree.Stacks height type :=
    .map (hread.mono fun type s₅ h₅ => ⟨type, rfl, h₅⟩)
  refine Ensures.bind (P := fun r s₅ => ∃ type, r = some type ∧ ReadsTo s₄ [type] words s₅ ∧
    s₅.tree.Stacks height type) hsome fun r s₅ h₅ => ?_
  obtain ⟨type, rfl, htype, hstacks⟩ := h₅
  have hmade := finish_faces (.typeAlias name (some type)) (hhead.append htype) (by simp) trivial
  refine hmade.mono fun id s₆ h₆ => ⟨h₆.readsTo, name, type, h₆.formed, ?_⟩
  exact hstacks.later h₆.continues

/-- An alias for a tower is one statement. -/
theorem statement_tower {a : AliasSyntax} (htype : a.type = .tower height) (hcount : height ≤ count)
    (hdepth : s.depth = 0) (h : s.Faces (a.words ++ words)) (hwords : StartWith endsTypeName words) :
    Ensures (statement (reader (count + 1))) s fun r s' =>
      ∃ id, r = some id ∧ ReadsTo s [id] words s' ∧ s'.tree.ShowsTower height id := by
  refine guarded_some (fun t id => t.ShowsTower height id) (by rw [hdepth]; decide) ?_
  have hkind : s.kind = .typealiasKeyword := h.kind_eq.trans AliasSyntax.kind_keyword
  have hlevel : s.deeper.depth < maxDepth := by
    show s.depth + 1 < maxDepth
    rw [hdepth]
    decide
  refine anyStatement_typeAlias h.deeper.settled hkind ?_
  exact (typeAlias_tower htype hcount hlevel h.deeper hwords).mono fun id s₁ h₁ => ⟨id, rfl, h₁⟩

end Grammar

/-! ## Section 3: Whole texts -/

/-- The text `typealias A = any ... any B`. -/
def towerAlias (height : Nat) : AliasSyntax := ⟨⟨['A'], by decide⟩, .tower height⟩

/-- An alias for a tower is the only statement of its text, and nothing is
    wrong with it, however high the tower is. -/
theorem parse_tower (height : Nat) :
    let file := SourceFile.parse (towerAlias height).text
    file.diagnostics = [] ∧
      ∃ id, file.tree.form? file.root = some (.sourceFile [id]) ∧ file.tree.ShowsTower height id := by
  intro file
  let a := towerAlias height
  have hlength : height ≤ a.text.toByteArray.size := by
    have htower : height ≤ (spellOut (a.type.words true) []).length :=
      TypeSyntax.le_length_tower height true
    rw [AliasSyntax.text, String.toByteArray_ofList]
    refine Nat.le_trans ?_ (Text.length_le_size _)
    simp only [AliasSyntax.words, spellOut, List.length_append]
    omega
  have hsole := Grammar.parse_sole (P := fun t id => t.ShowsTower height id) a.text rfl rfl
    (by decide) (by decide) (a.legible_words (TypeSyntax.readable_tower height)) (.cons (by decide))
    (fun hshows ht => hshows.later ht) fun s hdepth _ hfaces =>
      Grammar.statement_tower rfl (by omega) hdepth hfaces (.cons rfl)
  obtain ⟨hclean, id, hroot, -, htower⟩ := hsole
  exact ⟨hclean, id, hroot, htower⟩

end SelfCapture
