import NcLang.Proofs.LeafTexts
import NcLang.Tree.Outline

/-! # Legible outlines

An outline is legible if its leaves are names between quotes, numbers or types, and if its keys,
tags and type names are words. The outlines of nodes are legible, whatever names they have
(`Node.legible_outlineWith`). The first character of the text of a legible outline says what it is
(`Announces.unique`), and texts in a row are told apart if each one is and nothing like the lead
before them follows the row (`toldApart_row`).
-/

namespace NcLang.Outline

open Text (ToldApart Ends ends_cons IsLeaf isBareChar)

variable {byCode : Char → Bool}

/-! ## Words and shapes -/

/-- Whether the character may stand in a word. -/
def isWordChar (c : Char) : Bool :=
  c.isAlphanum || c = '_'

/-- Whether the text is a key or a tag. -/
def isWord (text : String) : Bool :=
  text.toList.all isWordChar

/-- Whether the text is a word that starts with a letter of upper case. -/
def isTitle (text : String) : Bool :=
  text.toList.head?.any Char.isUpper && isWord text

/-- An outline whose texts are not mistaken for anything else. -/
inductive Legible (byCode : Char → Bool) : Outline → Prop
  | value {text : String} (leaf : IsLeaf byCode text) : Legible byCode (.value text)
  | list {items : List Outline} (each : ∀ item ∈ items, Legible byCode item) :
      Legible byCode (.list items)
  | map {entries : List (String × Outline)} (keys : ∀ entry ∈ entries, isWord entry.1)
      (each : ∀ entry ∈ entries, Legible byCode entry.2) : Legible byCode (.map entries)
  | record {typeName tag : String} {fields : List (String × Outline)} (title : isTitle typeName)
      (word : isWord tag) (keys : ∀ field ∈ fields, isWord field.1)
      (each : ∀ field ∈ fields, Legible byCode field.2) :
      Legible byCode (.record typeName tag fields)

/-- Words are told apart if no character of a word follows them. -/
theorem toldApart_word {word word' : String} (isWord : isWord word)
    (isWord' : Outline.isWord word') :
    ToldApart (Ends isWordChar) word.toList word'.toList (word = word') := by
  have told := ToldApart.run (List.all_eq_true.mp isWord) (List.all_eq_true.mp isWord')
  exact told.imp String.toList_inj.mp

theorem isWord_of_isTitle {text : String} (title : isTitle text) : isWord text := by
  rw [isTitle, Bool.and_eq_true] at title
  exact title.2

/-- The kinds of outlines. -/
inductive Shape where
  | value
  | list
  | map
  | record

/-- The kind of an outline. -/
def shape : Outline → Shape
  | .value _ => .value
  | .list _ => .list
  | .map _ => .map
  | .record .. => .record

/-- The kind of the outlines whose text starts with the character. -/
def announced (c : Char) : Option Shape :=
  if c.isUpper then some .record
  else if c.isDigit || c.isLower || c = '-' || c = '"' then some .value
  else if c = '[' then some .list
  else if c = '\x7b' then some .map
  else none

/-- Whether the first character announces an outline of the kind. -/
def Announces (chars : List Char) (shape : Shape) : Prop :=
  chars.head?.bind announced = some shape

theorem Announces.append {chars : List Char} {shape : Shape} (announces : Announces chars shape)
    (rest : List Char) : Announces (chars ++ rest) shape := by
  cases chars with
  | nil => cases announces
  | cons c chars => exact announces

/-- Texts of outlines of different kinds are not mistaken for each other. -/
theorem Announces.unique {chars chars' rest rest' : List Char} {shape shape' : Shape}
    (announces : Announces chars shape) (announces' : Announces chars' shape')
    (equal : chars ++ rest = chars' ++ rest') : shape = shape' := by
  have whole := announces.append rest
  rw [Announces, equal, announces'.append rest'] at whole
  exact (Option.some.inj whole).symm

/-- It is enough to tell apart texts of outlines of one kind. -/
theorem Announces.toldApart {chars chars' : List Char} {shape shape' : Shape}
    {follows : List Char → Prop} {same : Prop} (announces : Announces chars shape)
    (announces' : Announces chars' shape')
    (alike : shape = shape' → ToldApart follows chars chars' same) :
    ToldApart follows chars chars' same := fun rest rest' fits fits' equal =>
  alike (announces.unique announces' equal) rest rest' fits fits' equal

/-- No number or type starts like a type name. -/
theorem isUpper_of_bare {c : Char} (start : c.isDigit || c.isLower || c = '-') :
    c.isUpper = false := by
  rw [Bool.eq_false_iff]
  intro upper
  have letter : 'A'.val ≤ c.val ∧ c.val ≤ 'Z'.val := of_decide_eq_true upper
  rw [Bool.or_eq_true, Bool.or_eq_true, decide_eq_true_eq] at start
  obtain (digit | lower) | rfl := start
  · have within : c.val ≤ '9'.val := of_decide_eq_true (Bool.and_eq_true_iff.mp digit).2
    exact absurd (UInt32.le_trans letter.1 within) (by decide)
  · have within : 'a'.val ≤ c.val := of_decide_eq_true (Bool.and_eq_true_iff.mp lower).1
    exact absurd (UInt32.le_trans within letter.2) (by decide)
  · cases upper

/-- A leaf starts like a value. -/
theorem announces_leaf {text : String} (leaf : IsLeaf byCode text) :
    Announces text.toList .value := by
  cases leaf with
  | quoted name =>
      rw [Text.Quoted.toList_textWith]
      rfl
  | bare bare =>
      obtain ⟨c, chars, split, start⟩ := IsLeaf.bare_head bare
      rw [Announces, split, List.head?_cons, Option.bind_some, announced, isUpper_of_bare start,
        start]
      rfl

/-- A title starts like a record. -/
theorem announces_title {text : String} (title : isTitle text) :
    Announces text.toList .record := by
  rw [isTitle, Bool.and_eq_true] at title
  cases split : text.toList with
  | nil =>
      rw [split] at title
      cases title.1
  | cons c chars =>
      rw [split] at title
      have upper : c.isUpper := title.1
      rw [Announces, List.head?_cons, Option.bind_some, announced, if_pos upper]

/-- Whether the text starts with a character other than the given one. -/
def StartsBeside (c : Char) (chars : List Char) : Prop :=
  ∃ first more, chars = first :: more ∧ first ≠ c

theorem Announces.startsBeside {chars : List Char} {shape : Shape}
    (announces : Announces chars shape) {c : Char} (quiet : announced c = none) :
    StartsBeside c chars := by
  cases chars with
  | nil => cases announces
  | cons first more =>
      refine ⟨first, more, rfl, ?_⟩
      rintro rfl
      cases announces.symm.trans quiet

/-! ## Rows of texts -/

section Row

variable {β : Type} {shows : β → List Char} {lead : List Char} {xs xs' : List β}
  {follows after : List Char → Prop}

/-- Texts one after the other, each after the same lead. -/
def row (lead : List Char) (shows : β → List Char) (xs : List β) : List Char :=
  xs.flatMap fun x => lead ++ shows x

theorem row_cons (x : β) : row lead shows (x :: xs) = lead ++ (shows x ++ row lead shows xs) := by
  rw [row, List.flatMap_cons, List.append_assoc]
  rfl

/-- What may follow a thing may be the rest of its row, or what may follow the row. -/
theorem follows_row (ends : ∀ rest, after rest → follows rest)
    (next : ∀ x ∈ xs, ∀ rest, follows (lead ++ (shows x ++ rest))) (rest : List Char)
    (fits : after rest) : follows (row lead shows xs ++ rest) := by
  cases xs with
  | nil => exact ends rest fits
  | cons x xs =>
      rw [row_cons, List.append_assoc, List.append_assoc]
      exact next x List.mem_cons_self _

/-- Rows are told apart if their texts are, and if no lead follows them. -/
theorem toldApart_row
    (each : ∀ x ∈ xs, ∀ x' ∈ xs', ToldApart follows (shows x) (shows x') (x = x'))
    (done : ∀ rest, after rest → ¬ lead <+: rest) (ends : ∀ rest, after rest → follows rest)
    (next : ∀ x ∈ xs, ∀ rest, follows (lead ++ (shows x ++ rest)))
    (next' : ∀ x ∈ xs', ∀ rest, follows (lead ++ (shows x ++ rest))) :
    ToldApart after (row lead shows xs) (row lead shows xs') (xs = xs') := by
  -- Where one row ends and the other goes on, the lead of the latter would follow the former.
  have more {x : β} {ys : List β} {rest rest' : List Char} (fits : after rest) :
      rest ≠ row lead shows (x :: ys) ++ rest' := by
    rintro rfl
    rw [row_cons, List.append_assoc] at fits
    exact done _ fits (List.prefix_append _ _)
  induction xs generalizing xs' with
  | nil =>
      intro rest rest' fits fits' equal
      cases xs' with
      | nil => exact ⟨rfl, equal⟩
      | cons x' xs' => exact (more fits equal).elim
  | cons x xs ih =>
      cases xs' with
      | nil =>
          intro rest rest' fits fits' equal
          exact (more fits' equal.symm).elim
      | cons x' xs' =>
          simp only [List.forall_mem_cons] at each next next'
          have first := each.1.1
          have others := ih (fun y member => (each.2 y member).2) next.2 next'.2
          have both := first.append others (follows_row ends next.2) (follows_row ends next'.2)
          rw [row_cons, row_cons]
          exact (both.after lead).imp fun same => by rw [same.1, same.2]

end Row

/-- A key, a mark and the text of what is under the key. -/
def labelled (mark : List Char) (shows : Outline → List Char) (entry : String × Outline) :
    List Char :=
  entry.1.toList ++ (mark ++ shows entry.2)

/-- Entries are told apart if what is under their keys is. -/
theorem toldApart_labelled {mark : List Char} {shows : Outline → List Char}
    {follows : List Char → Prop} {entries entries' : List (String × Outline)}
    (marked : ∀ rest, Ends isWordChar (mark ++ rest)) (keys : ∀ entry ∈ entries, isWord entry.1)
    (keys' : ∀ entry ∈ entries', isWord entry.1)
    (each : ∀ entry ∈ entries, ∀ entry' ∈ entries',
      ToldApart follows (shows entry.2) (shows entry'.2) (entry.2 = entry'.2)) :
    ∀ entry ∈ entries, ∀ entry' ∈ entries',
      ToldApart follows (labelled mark shows entry) (labelled mark shows entry')
        (entry = entry') := by
  intro entry member entry' member'
  have next (inner rest : List Char) : Ends isWordChar (mark ++ inner ++ rest) := by
    rw [List.append_assoc]
    exact marked _
  have both := (toldApart_word (keys entry member) (keys' entry' member')).append
    ((each entry member entry' member').after mark) (fun rest _ => next _ rest)
    (fun rest _ => next _ rest)
  exact both.imp fun same => Prod.ext same.1 same.2

/-- A key and its mark start with no other character than these have. -/
theorem startsBeside_labelled {mark : List Char} {shows : Outline → List Char}
    {entry : String × Outline} {c : Char} (key : isWord entry.1) (apart : isWordChar c = false)
    (marked : StartsBeside c mark) : StartsBeside c (labelled mark shows entry) := by
  rw [labelled]
  cases split : entry.1.toList with
  | nil =>
      obtain ⟨first, more, rfl, beside⟩ := marked
      exact ⟨first, _, rfl, beside⟩
  | cons first chars =>
      refine ⟨first, _, rfl, ?_⟩
      rintro rfl
      rw [isWord, split, List.all_cons, apart] at key
      cases key

end NcLang.Outline

/-! ## Outlines of nodes -/

namespace NcLang

variable {α : Type}

theorem NodeTag.isWord_name (tag : NodeTag) : Outline.isWord tag.name := by
  cases tag <;> rfl

theorem Node.isTitle_typeName (node : Node α) : Outline.isTitle node.typeName := by
  cases node <;> rw [Node.typeName] <;> rfl

/-- A record for a node is legible if its keys are words and its fields are legible. -/
theorem Node.legible_record {byCode : Char → Bool} (node : Node α)
    {fields : List (String × Outline)}
    (each : ∀ field ∈ fields, Outline.isWord field.1 ∧ field.2.Legible byCode) :
    (Outline.record node.typeName node.tag.name fields).Legible byCode :=
  .record node.isTitle_typeName node.tag.isWord_name (fun field member => (each field member).1)
    (fun field member => (each field member).2)

mutual

/-- The outline of a node is legible, whatever names it has. -/
theorem Node.legible_outlineWith (byCode : Char → Bool) :
    ∀ node : Node α, (node.outlineWith byCode).Legible byCode
  | .binary op lhs rhs loc => by
      have left := Node.legible_outlineWith byCode lhs
      have right := Node.legible_outlineWith byCode rhs
      rw [Node.outlineWith]
      apply Node.legible_record
      simp only [List.forall_mem_cons]
      exact ⟨⟨rfl, left⟩, ⟨rfl, right⟩, nofun⟩
  | .literal value loc => by
      have number := Text.isBare_integer value.toInt
      rw [Node.outlineWith]
      apply Node.legible_record
      simp only [List.forall_mem_cons]
      exact ⟨⟨rfl, .value (.bare number)⟩, nofun⟩
  | .varDef name type value loc => by
      have inner := Node.legible_outlineWith byCode value
      rw [Node.outlineWith]
      apply Node.legible_record
      simp only [List.forall_mem_cons]
      exact ⟨⟨rfl, .value (.quoted name)⟩, ⟨rfl, .value (.bare type.isBare_display)⟩,
        ⟨rfl, inner⟩, nofun⟩
  | .funcDef name returnType body loc => by
      have inner := Scope.legible_outlineWith byCode body
      rw [Node.outlineWith]
      apply Node.legible_record
      simp only [List.forall_mem_cons]
      exact ⟨⟨rfl, .value (.quoted name)⟩, ⟨rfl, .value (.bare returnType.isBare_display)⟩,
        ⟨rfl, inner⟩, nofun⟩
  | .scope inner => by
      rw [Node.outlineWith]
      exact Scope.legible_outlineWith byCode inner

theorem Scope.legible_outlineWith (byCode : Char → Bool) :
    ∀ scope : Scope α, (scope.outlineWith byCode).Legible byCode
  | ⟨kind, statements, loc⟩ => by
      have inner := Scope.legible_outlinesWith byCode statements
      rw [Scope.outlineWith]
      apply Node.legible_record (.scope ⟨kind, statements, loc⟩)
      simp only [List.forall_mem_cons]
      exact ⟨⟨rfl, .list inner⟩, nofun⟩

theorem Scope.legible_outlinesWith (byCode : Char → Bool) :
    ∀ nodes : List (Node α), ∀ outline ∈ Scope.outlinesWith byCode nodes, outline.Legible byCode
  | [] => nofun
  | node :: nodes => by
      rw [Scope.outlinesWith]
      exact List.forall_mem_cons.mpr
        ⟨Node.legible_outlineWith byCode node, Scope.legible_outlinesWith byCode nodes⟩

end

end NcLang
