import NcLang.Proofs.Legible

/-! # Reading outlines

Legible outlines are read back from both of their renderings: from the text on one line, where
commas and brackets say where an outline ends (`Legible.flat_inj`), and from the tree, where the
blanks at the beginning of the next line do (`Legible.print_inj`).
-/

namespace NcLang.Outline

open Text (ToldApart Ends ends_cons IsLeaf isBareChar)

variable {byCode : Char → Bool}

/-! ## On one line -/

/-- Whether the character ends what stands before it on a line. -/
def isStop (c : Char) : Bool :=
  c = ',' || c = ')' || c = ']' || c = '\x7d'

/-- What may follow an outline on a line: nothing, a comma or a closing bracket. -/
def Stops (rest : List Char) : Prop :=
  ∀ c ∈ rest.head?, isStop c

theorem stops_cons {c : Char} (stop : isStop c) (rest : List Char) : Stops (c :: rest) := by
  rintro first ⟨rfl⟩
  exact stop

/-- A class that has none of the four characters in it ends where an outline may end. -/
theorem ne_of_isStop {holds : Char → Bool} {c : Char} (stop : isStop c)
    (none : holds ',' = false ∧ holds ')' = false ∧ holds ']' = false ∧ holds '\x7d' = false) :
    holds c = false := by
  simp only [isStop, Bool.or_eq_true, decide_eq_true_eq] at stop
  obtain ((rfl | rfl) | rfl) | rfl := stop
  · exact none.1
  · exact none.2.1
  · exact none.2.2.1
  · exact none.2.2.2

/-- No bare text goes on into what follows it on a line. -/
theorem Stops.ends_bare {rest : List Char} (stops : Stops rest) : Ends isBareChar rest :=
  fun c member => ne_of_isStop (stops c member) (by decide)

/-- No word goes on into what follows it on a line. -/
theorem Stops.ends_word {rest : List Char} (stops : Stops rest) : Ends isWordChar rest :=
  fun c member => ne_of_isStop (stops c member) (by decide)

/-- What stands between two texts on a line. -/
def comma : List Char :=
  [',', ' ']

section Listed

variable {β : Type} {shows : β → List Char} {xs xs' : List β} {close : Char}
  {follows : List Char → Prop}

/-- Texts on a line with commas between them. -/
def listed (shows : β → List Char) : List β → List Char
  | [] => []
  | x :: xs => shows x ++ row comma shows xs

theorem toList_intercalate_cons (text : String) (texts : List String) :
    (String.intercalate ", " (text :: texts)).toList =
      text.toList ++ row comma String.toList texts := by
  induction texts generalizing text with
  | nil => simp [row]
  | cons next texts ih =>
      rw [String.intercalate_cons_cons, String.toList_append, String.toList_append, ih, row_cons,
        List.append_assoc]
      rfl

/-- Texts that are joined by commas are listed. -/
theorem toList_intercalate (texts : List String) :
    (String.intercalate ", " texts).toList = listed String.toList texts := by
  cases texts with
  | nil => rfl
  | cons text texts => exact toList_intercalate_cons text texts

theorem row_map {γ : Type} (lead : List Char) (f : γ → β) (ys : List γ) :
    row lead shows (ys.map f) = row lead (shows ∘ f) ys := by
  rw [row, List.flatMap_map]
  rfl

theorem listed_map {γ : Type} (f : γ → β) (ys : List γ) :
    listed shows (ys.map f) = listed (shows ∘ f) ys := by
  cases ys with
  | nil => rfl
  | cons y ys => rw [List.map_cons, listed, row_map, listed, Function.comp_apply]

/-- A text on a line ends at the next comma, or at the closing bracket after the last one. -/
theorem stops_further (stop : isStop close) (rest : List Char) :
    Stops (row comma shows xs ++ [close] ++ rest) := by
  rw [List.append_assoc]
  cases xs with
  | nil => exact stops_cons stop rest
  | cons x xs => exact stops_cons rfl _

/-- Further texts on a line are told apart if they are told apart where they stop. -/
theorem toldApart_further
    (each : ∀ x ∈ xs, ∀ x' ∈ xs', ToldApart Stops (shows x) (shows x') (x = x'))
    (stop : isStop close) (last : close ≠ ',') :
    ToldApart follows (row comma shows xs ++ [close]) (row comma shows xs' ++ [close])
      (xs = xs') := by
  let closed (rest : List Char) : Prop := ∃ more, rest = close :: more
  have rows : ToldApart closed (row comma shows xs) (row comma shows xs') (xs = xs') := by
    apply toldApart_row each
    · rintro rest ⟨more, rfl⟩ ⟨_, split⟩
      exact last (List.cons.inj split).1.symm
    · rintro rest ⟨more, rfl⟩
      exact stops_cons stop more
    · exact fun x _ rest => stops_cons rfl _
    · exact fun x _ rest => stops_cons rfl _
  exact rows.before [close] fun rest _ => ⟨rest, rfl⟩

/-- A list that is closed at once is not mistaken for one with something in it. -/
theorem closed_ne_listed {x : β} {rest rest' : List Char} (beside : StartsBeside close (shows x)) :
    close :: rest ≠ listed shows (x :: xs) ++ rest' := by
  obtain ⟨first, more, split, differs⟩ := beside
  intro equal
  rw [listed, split] at equal
  exact differs (List.cons.inj equal).1.symm

/-- Texts on a line are told apart if they are told apart where they stop, and if none of them
starts like the bracket that closes the list. -/
theorem toldApart_listed
    (each : ∀ x ∈ xs, ∀ x' ∈ xs', ToldApart Stops (shows x) (shows x') (x = x'))
    (beside : ∀ x ∈ xs, StartsBeside close (shows x))
    (beside' : ∀ x ∈ xs', StartsBeside close (shows x))
    (stop : isStop close) (last : close ≠ ',') :
    ToldApart follows (listed shows xs ++ [close]) (listed shows xs' ++ [close])
      (xs = xs') := by
  cases xs with
  | nil =>
      intro rest rest' _ _ equal
      cases xs' with
      | nil => exact ⟨rfl, (List.cons.inj equal).2⟩
      | cons x' xs' =>
          rw [List.append_assoc (listed shows (x' :: xs'))] at equal
          exact (closed_ne_listed (beside' x' List.mem_cons_self) equal).elim
  | cons x xs =>
      cases xs' with
      | nil =>
          intro rest rest' _ _ equal
          rw [List.append_assoc (listed shows (x :: xs))] at equal
          exact (closed_ne_listed (beside x List.mem_cons_self) equal.symm).elim
      | cons x' xs' =>
          simp only [List.forall_mem_cons] at each
          have others : ToldApart follows (row comma shows xs ++ [close])
              (row comma shows xs' ++ [close]) (xs = xs') :=
            toldApart_further (fun y member => (each.2 y member).2) stop last
          have both := each.1.1.append others (fun rest _ => stops_further stop rest)
            (fun rest _ => stops_further stop rest)
          rw [listed, listed, List.append_assoc, List.append_assoc]
          exact both.imp fun same => by rw [same.1, same.2]

end Listed

/-- The characters of an outline on one line. -/
def onLine (outline : Outline) : List Char :=
  outline.flat.toList

/-- The items of a list are shown one by one. -/
theorem flatItems_eq (items : List Outline) : flatItems items = items.map flat := by
  induction items with
  | nil => rfl
  | cons item items ih => rw [flatItems, ih, List.map_cons]

/-- The entries of a map are shown one by one, each after its key. -/
theorem flatEntries_eq (mark : String) (entries : List (String × Outline)) :
    flatEntries mark entries = entries.map fun entry => entry.1 ++ mark ++ entry.2.flat := by
  induction entries with
  | nil => rfl
  | cons entry entries ih => rw [flatEntries, ih, List.map_cons]

theorem toList_comp_flat : String.toList ∘ flat = onLine :=
  rfl

/-- An entry on a line is a text with its key in front. -/
theorem toList_comp_entry (mark : String) :
    (String.toList ∘ fun entry : String × Outline => entry.1 ++ mark ++ entry.2.flat) =
      labelled mark.toList onLine := by
  funext entry
  rw [Function.comp_apply, String.toList_append, String.toList_append, List.append_assoc]
  rfl

/-- A list on a line is its items within brackets. -/
theorem onLine_list (items : List Outline) :
    (list items).onLine = ['['] ++ (listed onLine items ++ [']']) := by
  rw [onLine, flat, String.toList_append, String.toList_append, toList_intercalate, flatItems_eq,
    listed_map, toList_comp_flat, List.append_assoc]
  rfl

/-- A map on a line is its labelled entries within braces. -/
theorem onLine_map (entries : List (String × Outline)) :
    (map entries).onLine =
      ['\x7b'] ++ (listed (labelled ": ".toList onLine) entries ++ ['\x7d']) := by
  rw [onLine, flat, String.toList_append, String.toList_append, toList_intercalate,
    flatEntries_eq, listed_map, toList_comp_entry, List.append_assoc]
  rfl

/-- A record on a line is its type name, its kind and its labelled fields. -/
theorem onLine_record (typeName tag : String) (fields : List (String × Outline)) :
    (record typeName tag fields).onLine =
      typeName.toList ++ ("(kind=".toList ++ (tag.toList ++
        (row comma (labelled "=".toList onLine) fields ++ [')']))) := by
  rw [onLine, flat, String.toList_append, String.toList_append, String.toList_append,
    toList_intercalate_cons, flatEntries_eq, row_map, toList_comp_entry, String.toList_append]
  simp only [List.append_assoc]
  rfl

/-- The first characters on a line show what sort of outline stands there. -/
theorem Legible.announces_onLine {outline : Outline} (legible : Legible byCode outline) :
    Announces outline.onLine outline.shape := by
  cases legible with
  | value leaf => exact announces_leaf leaf
  | list each =>
      rw [onLine_list]
      rfl
  | map keys each =>
      rw [onLine_map]
      rfl
  | record title word keys each =>
      rw [onLine_record]
      exact (announces_title title).append _

section Reading

variable {items items' : List Outline} {entries entries' : List (String × Outline)}
  {follows : List Char → Prop}

/-- Lists are told apart on a line if their items are. -/
theorem toldApart_onLine_list (legible : ∀ item ∈ items, Legible byCode item)
    (legible' : ∀ item ∈ items', Legible byCode item)
    (each : ∀ item ∈ items, ∀ item' ∈ items',
      ToldApart Stops item.onLine item'.onLine (item = item')) :
    ToldApart follows (list items).onLine (list items').onLine (list items = list items') := by
  have inside : ToldApart follows (listed onLine items ++ [']']) (listed onLine items' ++ [']'])
      (items = items') := by
    apply toldApart_listed each
    · exact fun item member => (legible item member).announces_onLine.startsBeside rfl
    · exact fun item member => (legible' item member).announces_onLine.startsBeside rfl
    · rfl
    · decide
  rw [onLine_list, onLine_list]
  exact (inside.after ['[']).imp fun same => by rw [same]

/-- Maps are told apart on a line if what is under their keys is; the keys end at a colon. -/
theorem toldApart_onLine_map (keys : ∀ entry ∈ entries, isWord entry.1)
    (keys' : ∀ entry ∈ entries', isWord entry.1)
    (each : ∀ entry ∈ entries, ∀ entry' ∈ entries',
      ToldApart Stops entry.2.onLine entry'.2.onLine (entry.2 = entry'.2)) :
    ToldApart follows (map entries).onLine (map entries').onLine (map entries = map entries') := by
  have colon (rest : List Char) : Ends isWordChar (": ".toList ++ rest) := ends_cons rfl _
  have start : StartsBeside '\x7d' ": ".toList := ⟨':', [' '], rfl, by decide⟩
  have inside : ToldApart follows (listed (labelled ": ".toList onLine) entries ++ ['\x7d'])
      (listed (labelled ": ".toList onLine) entries' ++ ['\x7d']) (entries = entries') := by
    apply toldApart_listed (toldApart_labelled colon keys keys' each)
    · exact fun entry member => startsBeside_labelled (keys entry member) rfl start
    · exact fun entry member => startsBeside_labelled (keys' entry member) rfl start
    · rfl
    · decide
  rw [onLine_map, onLine_map]
  exact (inside.after ['\x7b']).imp fun same => by rw [same]

/-- Records are told apart on a line if what is in their fields is. The type name ends at a bracket,
the tag at a comma or a bracket, and each key at an equals sign. -/
theorem toldApart_onLine_record {typeName typeName' tag tag' : String} (title : isTitle typeName)
    (title' : isTitle typeName') (word : isWord tag) (word' : isWord tag')
    (keys : ∀ entry ∈ entries, isWord entry.1) (keys' : ∀ entry ∈ entries', isWord entry.1)
    (each : ∀ entry ∈ entries, ∀ entry' ∈ entries',
      ToldApart Stops entry.2.onLine entry'.2.onLine (entry.2 = entry'.2)) :
    ToldApart follows (record typeName tag entries).onLine (record typeName' tag' entries').onLine
      (record typeName tag entries = record typeName' tag' entries') := by
  have equals (rest : List Char) : Ends isWordChar ("=".toList ++ rest) := ends_cons rfl _
  have inside : ToldApart follows (row comma (labelled "=".toList onLine) entries ++ [')'])
      (row comma (labelled "=".toList onLine) entries' ++ [')']) (entries = entries') :=
    toldApart_further (toldApart_labelled equals keys keys' each) rfl (by decide)
  have tags := (toldApart_word word word').append inside
    (fun rest _ => (stops_further rfl rest).ends_word)
    (fun rest _ => (stops_further rfl rest).ends_word)
  have names := (toldApart_word (isWord_of_isTitle title) (isWord_of_isTitle title')).append
    (tags.after "(kind=".toList) (fun rest _ => ends_cons rfl _) (fun rest _ => ends_cons rfl _)
  rw [onLine_record, onLine_record]
  exact names.imp fun same => by rw [same.1, same.2.1, same.2.2]

end Reading

/-- Legible outlines are told apart by their texts on one line. -/
theorem Legible.toldApart_onLine {outline outline' : Outline} (legible : Legible byCode outline)
    (legible' : Legible byCode outline') :
    ToldApart Stops outline.onLine outline'.onLine (outline = outline') := by
  induction legible generalizing outline' with
  | value leaf =>
      refine (announces_leaf leaf).toldApart legible'.announces_onLine fun alike => ?_
      cases legible' with
      | value leaf' =>
          intro rest rest' stops stops' equal
          have told := leaf.toldApart leaf' rest rest' stops.ends_bare stops'.ends_bare equal
          exact ⟨congrArg Outline.value told.1, told.2⟩
      | list _ | map _ _ | record _ _ _ _ => cases alike
  | list each ih =>
      refine (list each).announces_onLine.toldApart legible'.announces_onLine fun alike => ?_
      cases legible' with
      | list each' =>
          exact toldApart_onLine_list each each' fun item member item' member' =>
            ih item member (each' item' member')
      | value _ | map _ _ | record _ _ _ _ => cases alike
  | map keys each ih =>
      refine (map keys each).announces_onLine.toldApart legible'.announces_onLine fun alike => ?_
      cases legible' with
      | map keys' each' =>
          exact toldApart_onLine_map keys keys' fun entry member entry' member' =>
            ih entry member (each' entry' member')
      | value _ | list _ | record _ _ _ _ => cases alike
  | record title word keys each ih =>
      refine (record title word keys each).announces_onLine.toldApart legible'.announces_onLine
        fun alike => ?_
      cases legible' with
      | record title' word' keys' each' =>
          exact toldApart_onLine_record title title' word word' keys keys'
            fun entry member entry' member' => ih entry member (each' entry' member')
      | value _ | list _ | map _ _ => cases alike

/-- Legible outlines with the same text on one line are the same. -/
theorem Legible.flat_inj {outline outline' : Outline} (legible : Legible byCode outline)
    (legible' : Legible byCode outline') (equal : outline.flat = outline'.flat) :
    outline = outline' := by
  have chars : outline.onLine ++ [] = outline'.onLine ++ [] := by rw [onLine, equal, onLine]
  exact (legible.toldApart_onLine legible' [] [] nofun nofun chars).1

/-! ## As a tree -/

/-- The characters of some pieces. -/
def chars (pieces : List String) : List Char :=
  pieces.flatMap String.toList

@[simp] theorem chars_nil : chars [] = [] :=
  rfl

@[simp] theorem chars_cons (piece : String) (pieces : List String) :
    chars (piece :: pieces) = piece.toList ++ chars pieces :=
  rfl

@[simp] theorem chars_append (first second : List String) :
    chars (first ++ second) = chars first ++ chars second :=
  List.flatMap_append

/-- The characters of an outline as a tree at a depth. -/
def inTree (depth : Nat) (outline : Outline) : List Char :=
  chars (outline.pieces depth)

/-- The printed tree is the text of the pieces. -/
theorem toList_print (depth : Nat) (outline : Outline) :
    (outline.print depth).toList = outline.inTree depth :=
  String.toList_join

/-- A margin is made up of the margins of its levels. -/
theorem toList_margin_add (further depth : Nat) :
    (margin (further + depth)).toList = (margin further).toList ++ (margin depth).toList := by
  simp only [margin, String.toList_ofList, List.replicate_append_replicate, Nat.mul_add]

/-- What may follow lines at a depth: a line that does not start with as many blanks. -/
def Shallow (depth : Nat) (rest : List Char) : Prop :=
  ¬ (margin depth).toList <+: rest

/-- What may follow lines at a depth may follow deeper ones. -/
theorem Shallow.succ {depth : Nat} {rest : List Char} (shallow : Shallow depth rest) :
    Shallow (depth + 1) rest := by
  intro deep
  rw [toList_margin_add] at deep
  exact shallow ((List.prefix_append _ _).trans deep)

/-- A line at a depth may follow lines at the next one. -/
theorem shallow_line {line : List Char} (start : StartsBeside ' ' line) (depth : Nat)
    (rest : List Char) : Shallow (depth + 1) ((margin depth).toList ++ (line ++ rest)) := by
  obtain ⟨first, more, rfl, beside⟩ := start
  intro deep
  rw [toList_margin_add, List.prefix_append_right_inj] at deep
  obtain ⟨_, split⟩ := deep
  exact beside (List.cons.inj split).1.symm

section Lines

variable {β : Type} {shows : β → List Char} {xs xs' : List β} {close : Char} {depth : Nat}

/-- Texts on lines at a depth are told apart if none of them starts with a blank. -/
theorem toldApart_lines
    (each : ∀ x ∈ xs, ∀ x' ∈ xs', ToldApart (Shallow (depth + 1)) (shows x) (shows x') (x = x'))
    (starts : ∀ x ∈ xs, StartsBeside ' ' (shows x))
    (starts' : ∀ x ∈ xs', StartsBeside ' ' (shows x)) :
    ToldApart (Shallow depth) (row (margin depth).toList shows xs)
      (row (margin depth).toList shows xs') (xs = xs') := by
  apply toldApart_row each
  · exact fun rest shallow => shallow
  · exact fun rest shallow => shallow.succ
  · exact fun x member rest => shallow_line (starts x member) depth rest
  · exact fun x member rest => shallow_line (starts' x member) depth rest

/-- What comes after an opening bracket: nothing but the closing one, or lines at the next depth. -/
def bracketed (depth : Nat) (close : Char) (shows : β → List Char) : List β → List Char
  | [] => [close, '\n']
  | x :: xs =>
    ['\n'] ++ (row (margin (depth + 1)).toList shows (x :: xs) ++
      ((margin depth).toList ++ [close, '\n']))

/-- Lines within brackets are told apart if none of them starts with a blank. The closing bracket is
on a line that does not go in as far as they do. -/
theorem toldApart_bracketed {follows : List Char → Prop}
    (each : ∀ x ∈ xs, ∀ x' ∈ xs', ToldApart (Shallow (depth + 2)) (shows x) (shows x') (x = x'))
    (starts : ∀ x ∈ xs, StartsBeside ' ' (shows x))
    (starts' : ∀ x ∈ xs', StartsBeside ' ' (shows x))
    (beside : close ≠ ' ') (inLine : close ≠ '\n') :
    ToldApart follows (bracketed depth close shows xs) (bracketed depth close shows xs')
      (xs = xs') := by
  cases xs with
  | nil =>
      intro rest rest' _ _ equal
      cases xs' with
      | nil => exact ⟨rfl, List.append_cancel_left equal⟩
      | cons x' xs' => exact (inLine (List.cons.inj equal).1).elim
  | cons x xs =>
      cases xs' with
      | nil =>
          intro rest rest' _ _ equal
          exact (inLine (List.cons.inj equal).1.symm).elim
      | cons x' xs' =>
          have lines := toldApart_lines each starts starts'
          have closing (rest : List Char) (_ : follows rest) :
              Shallow (depth + 1) ((margin depth).toList ++ [close, '\n'] ++ rest) := by
            rw [List.append_assoc]
            exact shallow_line ⟨close, ['\n'], rfl, beside⟩ depth rest
          exact (lines.before _ closing).after ['\n']

end Lines

/-- Items are printed on a line each, at one depth. -/
theorem chars_piecesOfItems (depth : Nat) (items : List Outline) :
    chars (piecesOfItems depth items) = row (margin depth).toList (inTree depth) items := by
  induction items with
  | nil => rfl
  | cons item items ih =>
      rw [piecesOfItems, chars_append, chars_cons, ih, row_cons, List.append_assoc]
      rfl

/-- Entries are printed on a line each after their keys, at one depth. -/
theorem chars_piecesOfEntries (depth : Nat) (entries : List (String × Outline)) :
    chars (piecesOfEntries depth entries) =
      row (margin depth).toList (labelled ": ".toList (inTree depth)) entries := by
  induction entries with
  | nil => rfl
  | cons entry entries ih =>
      rw [piecesOfEntries, chars_append, chars_cons, chars_cons, chars_cons, ih, row_cons]
      simp only [labelled, List.append_assoc]
      rfl

theorem inTree_value (depth : Nat) (text : String) :
    (value text).inTree depth = text.toList ++ ['\n'] :=
  rfl

/-- A list as a tree has its items on lines of their own within brackets. -/
theorem inTree_list (depth : Nat) (items : List Outline) :
    (list items).inTree depth = ['['] ++ bracketed depth ']' (inTree (depth + 1)) items := by
  cases items with
  | nil => rfl
  | cons item items =>
      rw [inTree, pieces, chars_append, chars_append, chars_piecesOfItems, List.append_assoc]
      rfl

/-- A map as a tree has its entries on lines of their own within braces. -/
theorem inTree_map (depth : Nat) (entries : List (String × Outline)) :
    (map entries).inTree depth =
      ['\x7b'] ++ bracketed depth '\x7d' (labelled ": ".toList (inTree (depth + 1))) entries := by
  cases entries with
  | nil => rfl
  | cons entry entries =>
      rw [inTree, pieces, chars_append, chars_append, chars_piecesOfEntries, List.append_assoc]
      rfl

/-- A record as a tree is a header, with its fields on lines one level deeper. -/
theorem inTree_record (depth : Nat) (typeName tag : String) (fields : List (String × Outline)) :
    (record typeName tag fields).inTree depth =
      typeName.toList ++ (" - ".toList ++ (tag.toList ++ (['\n'] ++
        row (margin (depth + 1)).toList (labelled ": ".toList (inTree (depth + 1))) fields))) := by
  rw [inTree, pieces, chars_append, chars_piecesOfEntries]
  simp only [chars_cons, chars_nil, List.append_nil, List.append_assoc]
  rfl

/-- The first characters of a tree show what sort of outline it is, at every depth. -/
theorem Legible.announces_inTree {outline : Outline} (legible : Legible byCode outline)
    (depth : Nat) : Announces (outline.inTree depth) outline.shape := by
  cases legible with
  | value leaf =>
      rw [inTree_value]
      exact (announces_leaf leaf).append _
  | list each =>
      rw [inTree_list]
      rfl
  | map keys each =>
      rw [inTree_map]
      rfl
  | record title word keys each =>
      rw [inTree_record]
      exact (announces_title title).append _

section Reading

variable {items items' : List Outline} {entries entries' : List (String × Outline)}
  {follows : List Char → Prop} {depth : Nat}

theorem ends_colon (rest : List Char) : Ends isWordChar (": ".toList ++ rest) :=
  ends_cons rfl _

/-- No entry starts with a blank, so that its line is not taken for a deeper one. -/
theorem startsBeside_entry {shows : Outline → List Char}
    (keys : ∀ entry ∈ entries, isWord entry.1) :
    ∀ entry ∈ entries, StartsBeside ' ' (labelled ": ".toList shows entry) := fun entry member =>
  startsBeside_labelled (keys entry member) rfl ⟨':', [' '], rfl, by decide⟩

/-- Lists are told apart as trees if their items are, one level deeper. -/
theorem toldApart_inTree_list (legible : ∀ item ∈ items, Legible byCode item)
    (legible' : ∀ item ∈ items', Legible byCode item)
    (each : ∀ item ∈ items, ∀ item' ∈ items', ToldApart (Shallow (depth + 2))
      (item.inTree (depth + 1)) (item'.inTree (depth + 1)) (item = item')) :
    ToldApart follows ((list items).inTree depth) ((list items').inTree depth)
      (list items = list items') := by
  have inside : ToldApart follows (bracketed depth ']' (inTree (depth + 1)) items)
      (bracketed depth ']' (inTree (depth + 1)) items') (items = items') := by
    apply toldApart_bracketed each
    · exact fun item member => ((legible item member).announces_inTree _).startsBeside rfl
    · exact fun item member => ((legible' item member).announces_inTree _).startsBeside rfl
    · decide
    · decide
  rw [inTree_list, inTree_list]
  exact (inside.after ['[']).imp fun same => by rw [same]

/-- Maps are told apart as trees if what is under their keys is, one level deeper. -/
theorem toldApart_inTree_map (keys : ∀ entry ∈ entries, isWord entry.1)
    (keys' : ∀ entry ∈ entries', isWord entry.1)
    (each : ∀ entry ∈ entries, ∀ entry' ∈ entries', ToldApart (Shallow (depth + 2))
      (entry.2.inTree (depth + 1)) (entry'.2.inTree (depth + 1)) (entry.2 = entry'.2)) :
    ToldApart follows ((map entries).inTree depth) ((map entries').inTree depth)
      (map entries = map entries') := by
  have inside : ToldApart follows
      (bracketed depth '\x7d' (labelled ": ".toList (inTree (depth + 1))) entries)
      (bracketed depth '\x7d' (labelled ": ".toList (inTree (depth + 1))) entries')
      (entries = entries') := by
    apply toldApart_bracketed (toldApart_labelled ends_colon keys keys' each)
    · exact startsBeside_entry keys
    · exact startsBeside_entry keys'
    · decide
    · decide
  rw [inTree_map, inTree_map]
  exact (inside.after ['\x7b']).imp fun same => by rw [same]

/-- Records are told apart as trees if what is in their fields is, one level deeper. Nothing closes
a record, so that what follows must not go in as far as its fields do. -/
theorem toldApart_inTree_record {typeName typeName' tag tag' : String} (title : isTitle typeName)
    (title' : isTitle typeName') (word : isWord tag) (word' : isWord tag')
    (keys : ∀ entry ∈ entries, isWord entry.1) (keys' : ∀ entry ∈ entries', isWord entry.1)
    (each : ∀ entry ∈ entries, ∀ entry' ∈ entries', ToldApart (Shallow (depth + 2))
      (entry.2.inTree (depth + 1)) (entry'.2.inTree (depth + 1)) (entry.2 = entry'.2)) :
    ToldApart (Shallow (depth + 1)) ((record typeName tag entries).inTree depth)
      ((record typeName' tag' entries').inTree depth)
      (record typeName tag entries = record typeName' tag' entries') := by
  have lines := toldApart_lines (toldApart_labelled ends_colon keys keys' each)
    (startsBeside_entry keys) (startsBeside_entry keys')
  have tags := (toldApart_word word word').append (lines.after ['\n'])
    (fun rest _ => ends_cons rfl _) (fun rest _ => ends_cons rfl _)
  have names := (toldApart_word (isWord_of_isTitle title) (isWord_of_isTitle title')).append
    (tags.after " - ".toList) (fun rest _ => ends_cons rfl _) (fun rest _ => ends_cons rfl _)
  rw [inTree_record, inTree_record]
  exact names.imp fun same => by rw [same.1, same.2.1, same.2.2]

end Reading

/-- Legible outlines are told apart by the trees that they are printed as. -/
theorem Legible.toldApart_inTree {outline outline' : Outline} (legible : Legible byCode outline)
    (legible' : Legible byCode outline') (depth : Nat) :
    ToldApart (Shallow (depth + 1)) (outline.inTree depth) (outline'.inTree depth)
      (outline = outline') := by
  -- What is inside an outline is printed deeper, so that the claim is needed at all depths.
  induction legible generalizing outline' depth with
  | value leaf =>
      refine ((value leaf).announces_inTree depth).toldApart (legible'.announces_inTree depth) ?_
      intro alike
      cases legible' with
      | value leaf' =>
          have feed (rest : List Char) (_ : Shallow (depth + 1) rest) :
              Ends isBareChar (['\n'] ++ rest) := ends_cons rfl rest
          exact ((leaf.toldApart leaf').before ['\n'] feed).imp (congrArg Outline.value)
      | list _ | map _ _ | record _ _ _ _ => cases alike
  | list each ih =>
      refine ((list each).announces_inTree depth).toldApart (legible'.announces_inTree depth) ?_
      intro alike
      cases legible' with
      | list each' =>
          exact toldApart_inTree_list each each' fun item member item' member' =>
            ih item member (each' item' member') (depth + 1)
      | value _ | map _ _ | record _ _ _ _ => cases alike
  | map keys each ih =>
      refine ((map keys each).announces_inTree depth).toldApart (legible'.announces_inTree depth) ?_
      intro alike
      cases legible' with
      | map keys' each' =>
          exact toldApart_inTree_map keys keys' fun entry member entry' member' =>
            ih entry member (each' entry' member') (depth + 1)
      | value _ | list _ | record _ _ _ _ => cases alike
  | record title word keys each ih =>
      refine ((record title word keys each).announces_inTree depth).toldApart
        (legible'.announces_inTree depth) ?_
      intro alike
      cases legible' with
      | record title' word' keys' each' =>
          exact toldApart_inTree_record title title' word word' keys keys'
            fun entry member entry' member' => ih entry member (each' entry' member') (depth + 1)
      | value _ | list _ | map _ _ => cases alike

/-- Legible outlines that are printed as the same tree are the same. -/
theorem Legible.print_inj {outline outline' : Outline} (legible : Legible byCode outline)
    (legible' : Legible byCode outline') {depth : Nat}
    (equal : outline.print depth = outline'.print depth) : outline = outline' := by
  have chars : outline.inTree depth ++ [] = outline'.inTree depth ++ [] := by
    rw [← toList_print, equal, toList_print]
  have ended : Shallow (depth + 1) [] := by
    intro deep
    rw [toList_margin_add, List.prefix_nil, List.append_eq_nil_iff] at deep
    cases deep.2
  exact (legible.toldApart_inTree legible' depth [] [] ended ended chars).1

end NcLang.Outline
