import NcLang.Proofs.Compilable

/-! # The tokens that nodes are made of

Tokens are numbered from the start of a program, and every node is marked with the tokens it is made
of: a range of numbers in place of a location (`TokenRange`). While tokens are read, some nodes are
complete and some are still open, each within the next one outside. What is complete in an open node
lies before the node that is open inside it, and the complete functions take up all tokens before
the open one (`Draft.Nested`). So once a program is complete, the ranges of its functions follow
each other without gaps, and below them each node has its children apart, in order and inside.
-/

namespace NcLang

/-- Tokens next to each other: from the one that `start` counts to the one before `stop`. -/
structure TokenRange where
  start : Nat
  stop : Nat
  deriving DecidableEq

instance : Stretch TokenRange where
  through first last := ⟨first.start, last.stop⟩

namespace TokenRange

/-- The range of one token. -/
def single (number : Nat) : TokenRange where
  start := number
  stop := number + 1

/-- The numbers of the tokens in the range. -/
def numbers (range : TokenRange) : List Nat :=
  List.range' range.start (range.stop - range.start)

/-- Ranges between two bounds that are not empty, each after the one before it. -/
def InOrder : Nat → List TokenRange → Nat → Prop
  | lower, [], upper => lower ≤ upper
  | lower, range :: ranges, upper =>
    lower ≤ range.start ∧ range.start < range.stop ∧ InOrder range.stop ranges upper

/-- Ranges that are not empty and follow each other from one bound to the other without gaps. -/
def Tile : Nat → List TokenRange → Nat → Prop
  | lower, [], upper => lower = upper
  | lower, range :: ranges, upper =>
    lower = range.start ∧ range.start < range.stop ∧ Tile range.stop ranges upper

variable {lower middle upper bound : Nat} {range : TokenRange} {ranges : List TokenRange}

theorem InOrder.le (ordered : InOrder lower ranges upper) : lower ≤ upper := by
  induction ranges generalizing lower with
  | nil => exact ordered
  | cons range ranges ih =>
      obtain ⟨starts, nonempty, later⟩ := ordered
      have beyond := ih later
      omega

theorem InOrder.from_le (ordered : InOrder lower ranges upper) (earlier : bound ≤ lower) :
    InOrder bound ranges upper := by
  cases ranges with
  | nil => exact Nat.le_trans earlier ordered
  | cons range ranges => exact ⟨Nat.le_trans earlier ordered.1, ordered.2⟩

theorem InOrder.le_to (ordered : InOrder lower ranges upper) (later : upper ≤ bound) :
    InOrder lower ranges bound := by
  induction ranges generalizing lower with
  | nil => exact Nat.le_trans ordered later
  | cons range ranges ih => exact ⟨ordered.1, ordered.2.1, ih ordered.2.2⟩

/-- Ranges are in order if those before a place and those after it are. -/
theorem inOrder_append {first second : List TokenRange} :
    InOrder lower (first ++ second) upper ↔
      ∃ middle, InOrder lower first middle ∧ InOrder middle second upper := by
  induction first generalizing lower with
  | nil =>
      refine ⟨fun ordered => ⟨lower, Nat.le_refl lower, ordered⟩, ?_⟩
      rintro ⟨middle, starts, ordered⟩
      exact ordered.from_le starts
  | cons range first ih =>
      rw [List.cons_append, InOrder, ih]
      exact ⟨fun ⟨starts, nonempty, middle, early, late⟩ =>
          ⟨middle, ⟨starts, nonempty, early⟩, late⟩,
        fun ⟨middle, ⟨starts, nonempty, early⟩, late⟩ => ⟨starts, nonempty, middle, early, late⟩⟩

/-- Ranges in order stand within the bounds. -/
theorem InOrder.bounds (ordered : InOrder lower ranges upper) :
    ∀ range ∈ ranges, lower ≤ range.start ∧ range.stop ≤ upper := by
  induction ranges generalizing lower with
  | nil => exact fun _ member => (List.not_mem_nil member).elim
  | cons range ranges ih =>
      obtain ⟨starts, nonempty, later⟩ := ordered
      intro other member
      rcases List.mem_cons.mp member with rfl | member
      · exact ⟨starts, later.le⟩
      · obtain ⟨after, ends⟩ := ih later other member
        exact ⟨by omega, ends⟩

/-- Ranges in order do not meet. -/
theorem InOrder.pairwise (ordered : InOrder lower ranges upper) :
    ranges.Pairwise fun earlier later => earlier.stop ≤ later.start := by
  induction ranges generalizing lower with
  | nil => exact List.Pairwise.nil
  | cons range ranges ih =>
      obtain ⟨_, _, later⟩ := ordered
      exact List.pairwise_cons.mpr ⟨fun other member => (later.bounds other member).1, ih later⟩

theorem Tile.inOrder (tiled : Tile lower ranges upper) : InOrder lower ranges upper := by
  induction ranges generalizing lower with
  | nil => exact Nat.le_of_eq tiled
  | cons range ranges ih =>
      obtain ⟨starts, nonempty, later⟩ := tiled
      exact ⟨Nat.le_of_eq starts, nonempty, ih later⟩

/-- A range that starts where others end goes on with them. -/
theorem Tile.concat (tiled : Tile lower ranges middle) (starts : middle = range.start)
    (nonempty : range.start < range.stop) : Tile lower (ranges ++ [range]) range.stop := by
  induction ranges generalizing lower with
  | nil => exact ⟨(tiled : lower = middle).trans starts, nonempty, rfl⟩
  | cons first ranges ih => exact ⟨tiled.1, tiled.2.1, ih tiled.2.2⟩

/-- The last range ends where all do. -/
theorem Tile.stop_eq (tiled : Tile lower (ranges ++ [range]) upper) : range.stop = upper := by
  induction ranges generalizing lower with
  | nil => exact tiled.2.2
  | cons first ranges ih => exact ih tiled.2.2

/-- Ranges without gaps have every number between the bounds, once and in order. -/
theorem Tile.numbers_eq (tiled : Tile lower ranges upper) :
    ranges.flatMap numbers = List.range' lower (upper - lower) := by
  induction ranges generalizing lower with
  | nil =>
      obtain rfl : lower = upper := tiled
      rw [Nat.sub_self]
      rfl
  | cons range ranges ih =>
      obtain ⟨rfl, nonempty, later⟩ := tiled
      have beyond := later.inOrder.le
      have next : range.stop = range.start + 1 * (range.stop - range.start) := by omega
      have size : range.stop - range.start + (upper - range.stop) = upper - range.start := by omega
      rw [List.flatMap_cons, ih later, numbers, ← size, ← List.range'_append, ← next]

end TokenRange

/-! ## Nodes marked with ranges -/

/-- A node made of some tokens, with its children made of some of these, apart and in order. -/
structure Node.Nests (node : Node TokenRange) : Prop where
  nonempty : node.loc.start < node.loc.stop
  children : TokenRange.InOrder node.loc.start (node.children.map Node.loc) node.loc.stop

/-- The nodes of a tree are nested all the way down. -/
def Node.WellNested (node : Node TokenRange) : Prop :=
  ∀ part ∈ node.parts, part.Nests

/-- Trees between two bounds, one after the other. -/
structure Node.Between (lower : Nat) (nodes : List (Node TokenRange)) (upper : Nat) : Prop where
  nested : ∀ node ∈ nodes, node.WellNested
  ordered : TokenRange.InOrder lower (nodes.map Node.loc) upper

namespace Node

variable {lower upper bound : Nat} {node : Node TokenRange} {nodes : List (Node TokenRange)}

theorem WellNested.nests (nested : node.WellNested) : node.Nests :=
  nested node (node.parts_eq ▸ List.mem_cons_self)

/-- The children of a well-nested node are well nested. -/
theorem WellNested.child (nested : node.WellNested) {child : Node TokenRange}
    (member : child ∈ node.children) : child.WellNested := by
  intro part below
  apply nested part
  rw [node.parts_eq]
  exact List.mem_cons_of_mem node (List.mem_flatMap.mpr ⟨child, member, below⟩)

/-- A node is nested all the way down if it lies around children that are. -/
theorem Between.wellNested (between : Between lower node.children upper)
    (starts : node.loc.start ≤ lower) (stops : upper ≤ node.loc.stop)
    (nonempty : node.loc.start < node.loc.stop) : node.WellNested := by
  intro part member
  rw [node.parts_eq, List.mem_cons, List.mem_flatMap] at member
  rcases member with rfl | ⟨child, among, below⟩
  · exact ⟨nonempty, (between.ordered.from_le starts).le_to stops⟩
  · exact between.nested child among part below

theorem between_nil (bounds : lower ≤ upper) : Between lower [] upper :=
  ⟨fun _ member => (List.not_mem_nil member).elim, bounds⟩

theorem WellNested.between (nested : node.WellNested) (starts : lower ≤ node.loc.start)
    (stops : node.loc.stop ≤ upper) : Between lower [node] upper := by
  refine ⟨?_, starts, nested.nests.nonempty, stops⟩
  intro other member
  rw [List.mem_singleton.mp member]
  exact nested

theorem Between.le_to (between : Between lower nodes upper) (later : upper ≤ bound) :
    Between lower nodes bound :=
  ⟨between.nested, between.ordered.le_to later⟩

/-- Nodes stand between two bounds if those before a place and those after it do. -/
theorem between_append {first second : List (Node TokenRange)} :
    Between lower (first ++ second) upper ↔
      ∃ middle, Between lower first middle ∧ Between middle second upper := by
  constructor
  · rintro ⟨nested, ordered⟩
    rw [List.map_append, TokenRange.inOrder_append] at ordered
    obtain ⟨middle, early, late⟩ := ordered
    exact ⟨middle, ⟨fun node member => nested node (List.mem_append_left second member), early⟩,
      fun node member => nested node (List.mem_append_right first member), late⟩
  · rintro ⟨middle, early, late⟩
    refine ⟨?_, ?_⟩
    · intro node member
      rcases List.mem_append.mp member with member | member
      · exact early.nested node member
      · exact late.nested node member
    · rw [List.map_append, TokenRange.inOrder_append]
      exact ⟨middle, early.ordered, late.ordered⟩

/-- An operator with its operands lies where they do. -/
theorem Between.join {lhs : Option (Node TokenRange)} {rhs : Node TokenRange} (op : BinaryOp)
    (between : Between lower (lhs.toList ++ [rhs]) upper) :
    Between lower [Node.join op lhs rhs] upper := by
  cases lhs with
  | none => exact between
  | some lhs =>
      have operands : Between lower [lhs, rhs] upper := between
      obtain ⟨starts, left, apart, right, stops⟩ := operands.ordered
      have children : Between lhs.loc.start [lhs, rhs] rhs.loc.stop :=
        ⟨operands.nested, Nat.le_refl _, left, apart, right, Nat.le_refl _⟩
      have nonempty : lhs.loc.start < rhs.loc.stop := by omega
      have nested : (Node.join op (some lhs) rhs).WellNested :=
        children.wellNested (Nat.le_refl _) (Nat.le_refl _) nonempty
      exact nested.between starts stops

theorem wellNested_literal (value : Int64) (number : Nat) :
    (Node.literal value (.single number)).WellNested :=
  (between_nil (Nat.le_succ number)).wellNested (Nat.le_refl _) (Nat.le_refl _)
    (Nat.lt_succ_self number)

end Node

/-! ## Open nodes -/

/-- A node of which more tokens are to come: the number of its first token, and the trees in it that
are complete. -/
structure OpenNode where
  start : Nat
  inside : List (Node TokenRange) := []

/-- The definition that is open at a place within a block. -/
def BlockPlace.opened : BlockPlace TokenRange → List OpenNode
  | .statement => []
  | .variableName loc | .variableType loc _ => [{ start := loc.start }]
  | .equals head => [{ start := head.loc.start }]
  | .operand head before =>
    [{ start := head.loc.start, inside := before.sum.toList ++ before.product.toList }]
  | .operator head sum product =>
    [{ start := head.loc.start, inside := sum.toList ++ [product] }]

def OpenBlock.opened (block : OpenBlock TokenRange) : OpenNode where
  start := block.loc.start
  inside := block.statements

/-- The open blocks of a function and the function itself, from the inside out. -/
def OpenFunction.opened (function : OpenFunction TokenRange) : List OpenNode :=
  function.inner.opened ::
    (function.outer.map OpenBlock.opened ++ [{ start := function.head.loc.start }])

/-- The nodes that are open at a place within a program, from the inside out. -/
def ProgramPlace.opened : ProgramPlace TokenRange → List OpenNode
  | .function => []
  | .functionName loc | .leftParen loc _ | .rightParen loc _ | .returnType loc _ =>
    [{ start := loc.start }]
  | .body head => [{ start := head.loc.start }]
  | .within around place => place.opened ++ around.opened

/-- Functions that are made of all tokens before a number. -/
structure Node.Cover (functions : List (Node TokenRange)) (stop : Nat) : Prop where
  nested : ∀ function ∈ functions, function.WellNested
  tiled : TokenRange.Tile 0 (functions.map Node.loc) stop

namespace Node.Cover

variable {functions : List (Node TokenRange)} {stop : Nat} {function : Node TokenRange}

/-- The first function starts at the first token. -/
theorem start_of_head (cover : Cover functions stop) (first : function ∈ functions.head?) :
    function.loc.start = 0 := by
  obtain ⟨rest, rfl⟩ := List.head?_eq_some_iff.mp first
  exact cover.tiled.1.symm

/-- The last function stops after the last token so far. -/
theorem stop_of_last (cover : Cover functions stop) (last : function ∈ functions.getLast?) :
    function.loc.stop = stop := by
  obtain ⟨front, rfl⟩ := List.getLast?_eq_some_iff.mp last
  have tiled := cover.tiled
  rw [List.map_append] at tiled
  exact tiled.stop_eq

theorem stop_le (cover : Cover functions stop) (member : function ∈ functions) :
    function.loc.stop ≤ stop :=
  (cover.tiled.inOrder.bounds function.loc (List.mem_map_of_mem member)).2

end Node.Cover

/-- Open nodes, from the inside out, that stand within each other and after complete functions. The
trees in an open node lie between its first token and the next open node inside. -/
def OpenNode.Nested (functions : List (Node TokenRange)) : Nat → List OpenNode → Prop
  | stop, [] => Node.Cover functions stop
  | stop, node :: outer =>
    Node.Between (node.start + 1) node.inside stop ∧ OpenNode.Nested functions node.start outer

/-- A draft that was read from as many tokens has its nodes nested. -/
def Draft.Nested (draft : Draft TokenRange) (count : Nat) : Prop :=
  OpenNode.Nested draft.functions count draft.place.opened

theorem Draft.nested_empty : ({} : Draft TokenRange).Nested 0 :=
  ⟨fun _ member => (List.not_mem_nil member).elim, rfl⟩

/-- What a step within a block needs for the nodes to stay nested: what it completes is made of the
tokens up to the one that is read. -/
def BlockStep.Nested (functions : List (Node TokenRange)) (count : Nat) (outer : List OpenNode) :
    BlockStep TokenRange → Prop
  | .goOn place => OpenNode.Nested functions (count + 1) (place.opened ++ outer)
  | .addStatement statement =>
    statement.WellNested ∧ statement.loc.stop = count + 1 ∧
      OpenNode.Nested functions statement.loc.start outer
  | .openBlock brace | .closeBlock brace =>
    brace = .single count ∧ OpenNode.Nested functions count outer

variable {functions : List (Node TokenRange)} {count : Nat}

/-- A token that completes nothing belongs to the innermost open node. -/
theorem OpenNode.Nested.goOn {node : OpenNode} {outer : List OpenNode}
    (nested : OpenNode.Nested functions count (node :: outer)) :
    OpenNode.Nested functions (count + 1) (node :: outer) :=
  ⟨nested.1.le_to (Nat.le_succ count), nested.2⟩

/-- A token after complete trees opens a node. -/
theorem OpenNode.Nested.opens {outer : List OpenNode}
    (nested : OpenNode.Nested functions count outer) :
    OpenNode.Nested functions (count + 1) ({ start := count } :: outer) :=
  ⟨Node.between_nil (Nat.le_refl _), nested⟩

/-- A step within a block keeps the nodes nested. -/
theorem BlockPlace.Step.nested {place : BlockPlace TokenRange} {token : Token TokenRange}
    {step : BlockStep TokenRange} {outer : List OpenNode} (taken : place.Step token step)
    (here : token.loc = .single count)
    (nested : OpenNode.Nested functions count (place.opened ++ outer)) :
    step.Nested functions count outer := by
  cases taken with
  | closeBlock => exact ⟨here, nested⟩
  | openBlock => exact ⟨here, nested⟩
  | keyword =>
      rw [here]
      exact OpenNode.Nested.opens nested
  | name => exact OpenNode.Nested.goOn nested
  | type => exact OpenNode.Nested.goOn nested
  | equals => exact OpenNode.Nested.goOn nested
  | @operand head before value counted =>
      -- The number joins the factors before it, and the terms before the last `+` stay as they are.
      obtain ⟨between, outside⟩ := nested
      obtain ⟨middle, sum, product⟩ := Node.between_append.mp between
      have literal : Node.Between count [.literal value token.loc] (count + 1) := by
        rw [here]
        exact (Node.wellNested_literal value count).between (Nat.le_refl _) (Nat.le_refl _)
      have term := (Node.between_append.mpr ⟨count, product, literal⟩).join .mul
      exact ⟨Node.between_append.mpr ⟨middle, sum, term⟩, outside⟩
  | star => exact OpenNode.Nested.goOn nested
  | plus =>
      obtain ⟨between, outside⟩ := nested
      exact OpenNode.Nested.goOn ⟨between.join .add, outside⟩
  | @semicolon head sum product kind =>
      obtain ⟨between, outside⟩ := nested
      have value := between.join .add
      have bounds : head.loc.start + 1 ≤ count := value.ordered.le
      have stop : token.loc.stop = count + 1 := by
        rw [here]
        rfl
      have loc : (head.complete (.join .add sum product) token.loc).loc =
          ⟨head.loc.start, count + 1⟩ := by
        rw [← stop]
        rfl
      refine ⟨value.wellNested ?_ ?_ ?_, ?_, ?_⟩
      all_goals rw [loc]
      · exact Nat.le_succ _
      · exact Nat.le_succ _
      · change head.loc.start < count + 1
        omega
      · exact outside

/-- The closing brace of a block nests it around its statements. -/
theorem OpenBlock.wellNested_complete {block : OpenBlock TokenRange}
    (between : Node.Between (block.loc.start + 1) block.statements count) :
    (Node.scope (block.complete (.single count))).WellNested ∧
      (Node.scope (block.complete (.single count))).loc = ⟨block.loc.start, count + 1⟩ := by
  have bounds := between.ordered.le
  have nonempty : block.loc.start < count + 1 := by omega
  exact ⟨Node.Between.wellNested between (Nat.le_succ _) (Nat.le_succ _) nonempty, rfl⟩

/-- A step within a block keeps a draft well nested, also where it closes a block or the function.
-/
theorem Draft.nested_afterStep {opened : OpenFunction TokenRange} {step : BlockStep TokenRange}
    (nested : step.Nested functions count opened.opened) :
    (Draft.afterStep functions opened step).Nested (count + 1) := by
  obtain ⟨head, outer, inner⟩ := opened
  cases step with
  | goOn place => exact nested
  | addStatement statement =>
      obtain ⟨complete, stop, between, outside⟩ := nested
      have added := complete.between (Nat.le_refl _) (Nat.le_of_eq stop)
      exact ⟨Node.between_append.mpr ⟨_, between, added⟩, outside⟩
  | openBlock brace =>
      obtain ⟨rfl, nested⟩ := nested
      exact OpenNode.Nested.opens nested
  | closeBlock brace =>
      obtain ⟨rfl, between, outside⟩ := nested
      obtain ⟨scope, loc⟩ := OpenBlock.wellNested_complete between
      cases outer with
      | nil =>
          -- The block is the body, so the brace completes the function, which takes up all tokens
          -- since the functions before it.
          obtain ⟨space, cover⟩ := outside
          have apart : head.loc.start + 1 ≤ inner.loc.start := space.ordered
          have bounds : inner.loc.start + 1 ≤ count := between.ordered.le
          have nonempty : head.loc.start < count + 1 := by omega
          have body : Node.Between inner.loc.start
              [.scope (inner.complete (.single count))] (count + 1) :=
            scope.between (Nat.le_refl _) (Nat.le_refl _)
          have function : (head.complete (inner.complete (.single count))).WellNested :=
            body.wellNested (Nat.le_of_succ_le apart) (Nat.le_refl _) nonempty
          refine ⟨?_, ?_⟩
          · intro other member
            rcases List.mem_append.mp member with early | last
            · exact cover.nested other early
            · rw [List.mem_singleton.mp last]
              exact function
          · change TokenRange.Tile 0 ((functions ++ [_]).map Node.loc) (count + 1)
            rw [List.map_append]
            exact cover.tiled.concat rfl nonempty
      | cons block outer =>
          obtain ⟨before, outside⟩ := outside
          have added := scope.between (Nat.le_refl _) (Nat.le_refl _)
          exact ⟨Node.between_append.mpr ⟨_, before, added⟩, outside⟩

/-- A token keeps the nodes nested. -/
theorem Draft.Step.nested {draft next : Draft TokenRange} {token : Token TokenRange}
    (taken : Draft.Step draft.functions token draft.place next) (here : token.loc = .single count)
    (nested : draft.Nested count) : next.Nested (count + 1) := by
  obtain ⟨functions, place⟩ := draft
  cases taken with
  | keyword =>
      rw [here]
      exact OpenNode.Nested.opens nested
  | body =>
      rw [here]
      exact OpenNode.Nested.opens nested
  | within taken => exact Draft.nested_afterStep (taken.nested here nested)
  | _ => exact OpenNode.Nested.goOn nested

/-! ## Numbered tokens -/

/-- The tokens with their numbers, which start from a count. -/
def Token.numbered {α : Type} : Nat → List (Token α) → List (Token TokenRange)
  | _, [] => []
  | count, token :: tokens =>
    { toLexeme := token.toLexeme, loc := .single count } :: Token.numbered (count + 1) tokens

/-- Reading numbered tokens keeps the nodes nested. -/
theorem Draft.after?_nested {α : Type} {draft reached : Draft TokenRange} {tokens : List (Token α)}
    (nested : draft.Nested count)
    (path : draft.after? (Token.numbered count tokens) = some reached) :
    reached.Nested (count + tokens.length) := by
  induction tokens generalizing draft count with
  | nil =>
      cases path
      exact nested
  | cons token tokens ih =>
      obtain ⟨next, step, path⟩ := Draft.after?_cons path
      have later := ih ((Draft.step_of_read step).nested rfl nested) path
      rw [List.length_cons, Nat.add_comm tokens.length, ← Nat.add_assoc]
      exact later

end NcLang
