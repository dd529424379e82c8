import Mathlib.Data.List.Forall2
import Moonlight.Lib.Stuffing

/-!
# The OTB node format

`OTB::Loader` reads a mapped file that holds a four-byte identifier followed by one tree of nodes. A
node is written `START`, its raw type byte, its properties with every control byte escaped, its
children, `END`. `parseTree` walks the file once with an explicit stack of open nodes and records,
for each node, the half-open range of the file its properties occupy; `getProps` later copies such a
range through a filter that drops the escapes.

The model keeps the two-phase design. `parseLoop` is the loop over the file position `it`, with every
dereference of the iterator checked against the end of the file: a read outside the mapping is the
error `outOfBounds`, distinct from the exception `InvalidOTBFormat` the source throws. `scan` is the
same automaton over the unread suffix of the file, and `parseLoop_eq_scan` is the bridge: from a
position inside the file the loop is the automaton, so no dereference fails.

Two results about the whole format follow.

* `parseTree_encode` — decoding undoes encoding, for every tree, type byte and property bytes.
* `parseTree_accepts` — an accepted file is the identifier, a balanced node and inert trailing bytes,
  and every node of the result refers to a range inside the file.
-/

namespace Moonlight.OTB

/-! ### Nodes and control bytes -/

/-- `Node::ESCAPE`. -/
def ESCAPE : UInt8 := 0xFD

/-- `Node::START`. -/
def START : UInt8 := 0xFE

/-- `Node::END`. -/
def END : UInt8 := 0xFF

/-- The three bytes the parser does not take at face value. -/
def isControl (b : UInt8) : Bool := b == ESCAPE || b == START || b == END

/-- A parsed node. The iterators `propsBegin` and `propsEnd` are file positions; `propsEnd` is only
assigned at the first child or at the `END` of the node. -/
inductive Node where
  | mk (children : List Node) (propsBegin : Nat) (propsEnd : Option Nat) (type : UInt8)

namespace Node

/-- The children read so far. -/
def children : Node → List Node
  | mk cs _ _ _ => cs

/-- Where the properties start. -/
def propsBegin : Node → Nat
  | mk _ b _ _ => b

/-- Where the properties end, once known. -/
def propsEnd : Node → Option Nat
  | mk _ _ e _ => e

/-- The raw type byte. -/
def type : Node → UInt8
  | mk _ _ _ t => t

/-- `if (currentNode.children.empty()) currentNode.propsEnd = it;` -/
def closeProps (n : Node) (it : Nat) : Node :=
  if n.children.isEmpty then mk n.children n.propsBegin (some it) n.type else n

/-- Attach a finished child. The source grows the children vector when the child is opened and fills
the child in place; here the child is attached when it is popped, and its parent is not looked at in
between. -/
def addChild (n c : Node) : Node :=
  mk (n.children ++ [c]) n.propsBegin n.propsEnd n.type

end Node

/-- How loading can go wrong: the exception of the source, or a dereference outside the mapping,
which the source does not check for. -/
inductive LoadError where
  | InvalidOTBFormat
  | outOfBounds
  deriving DecidableEq, Repr

/-! ### The loader -/

/-- Dereference an iterator. -/
def deref (fileContents : List UInt8) (it : Nat) : Except LoadError UInt8 :=
  match fileContents[it]? with
  | some b => .ok b
  | none => .error .outOfBounds

/-- `sizeof(Identifier)`. -/
def identifierSize : Nat := 4

/-- `sizeof(Identifier) + sizeof(Node::START) + sizeof(Node::type) + sizeof(Node::END)`. -/
def minimalSize : Nat := identifierSize + 1 + 1 + 1

/-- The size and identifier checks of the constructor `Loader::Loader`. -/
def Loader.accepts (fileContents acceptedIdentifier : List UInt8) : Bool :=
  decide (minimalSize < fileContents.length) &&
    (fileContents.take identifierSize == acceptedIdentifier ||
      fileContents.take identifierSize == [0, 0, 0, 0])

/-- The `for` loop of `Loader::parseTree`. The stack holds the open nodes, innermost first; `root` is
the root node once it is closed. -/
def parseLoop (fileContents : List UInt8) (it : Nat) (root : Node) (parseStack : List Node) :
    Except LoadError Node :=
  if it = fileContents.length then
    if parseStack.isEmpty then .ok root else .error .InvalidOTBFormat
  else
    match h : fileContents[it]? with
    | none => .error .outOfBounds
    | some b =>
      if b = START then
        match parseStack with
        | [] => .error .InvalidOTBFormat
        | currentNode :: parents =>
          if it + 1 = fileContents.length then .error .InvalidOTBFormat
          else
            match deref fileContents (it + 1) with
            | .error e => .error e
            | .ok t =>
              parseLoop fileContents (it + 2) root
                (Node.mk [] (it + 2) none t :: currentNode.closeProps it :: parents)
      else if b = END then
        match parseStack with
        | [] => .error .InvalidOTBFormat
        | [currentNode] => parseLoop fileContents (it + 1) (currentNode.closeProps it) []
        | currentNode :: parent :: parents =>
          parseLoop fileContents (it + 1) root
            (parent.addChild (currentNode.closeProps it) :: parents)
      else if b = ESCAPE then
        if it + 1 = fileContents.length then .error .InvalidOTBFormat
        else parseLoop fileContents (it + 2) root parseStack
      else parseLoop fileContents (it + 1) root parseStack
termination_by fileContents.length - it
decreasing_by
  all_goals
    have hlt := (List.getElem?_eq_some_iff.mp h).1
    omega

/-- `Loader::parseTree`. -/
def parseTree (fileContents : List UInt8) : Except LoadError Node :=
  match deref fileContents identifierSize with
  | .error e => .error e
  | .ok b =>
    if b ≠ START then .error .InvalidOTBFormat
    else
      match deref fileContents (identifierSize + 1) with
      | .error e => .error e
      | .ok t =>
        let root := Node.mk [] (identifierSize + 2) none t
        parseLoop fileContents (identifierSize + 2) root [root]

/-- `Loader::getProps`: `none` is the answer `false`. The `copy_if` predicate with its captured bit
`lastEscaped` is the filter `Stuffing.unstuff`. -/
def getProps (fileContents : List UInt8) (node : Node) : Option (List UInt8) :=
  match node.propsEnd with
  | none => none
  | some e =>
    if e - node.propsBegin = 0 then none
    else some (Stuffing.unstuff ESCAPE false
      ((fileContents.drop node.propsBegin).take (e - node.propsBegin)))

/-! ### The automaton over the unread suffix -/

/-- `parseLoop` read over the bytes that are left: no position can fall outside the file. -/
def scan (it : Nat) : List UInt8 → Node → List Node → Except LoadError Node
  | [], root, parseStack => if parseStack.isEmpty then .ok root else .error .InvalidOTBFormat
  | b :: rest, root, parseStack =>
    if b = START then
      match parseStack with
      | [] => .error .InvalidOTBFormat
      | currentNode :: parents =>
        match rest with
        | [] => .error .InvalidOTBFormat
        | t :: rest' =>
          scan (it + 2) rest' root
            (Node.mk [] (it + 2) none t :: currentNode.closeProps it :: parents)
    else if b = END then
      match parseStack with
      | [] => .error .InvalidOTBFormat
      | [currentNode] => scan (it + 1) rest (currentNode.closeProps it) []
      | currentNode :: parent :: parents =>
        scan (it + 1) rest root (parent.addChild (currentNode.closeProps it) :: parents)
    else if b = ESCAPE then
      match rest with
      | [] => .error .InvalidOTBFormat
      | _ :: rest' => scan (it + 2) rest' root parseStack
    else scan (it + 1) rest root parseStack

/-- **The loop is the automaton.** From any position inside the file, the loop with checked
dereferences and the automaton over the remaining bytes agree: the tests `it != end` and
`++it == end` of the source guard every read. -/
theorem parseLoop_eq_scan (fileContents : List UInt8) (it : Nat) (root : Node)
    (parseStack : List Node) (h : it ≤ fileContents.length) :
    parseLoop fileContents it root parseStack
      = scan it (fileContents.drop it) root parseStack := by
  induction hk : fileContents.length - it using Nat.strongRecOn
    generalizing it root parseStack with
  | ind k ih =>
  subst hk
  unfold parseLoop
  by_cases hend : it = fileContents.length
  · rw [if_pos hend, hend, List.drop_length]
    rfl
  · have hlt : it < fileContents.length := Nat.lt_of_le_of_ne h hend
    rw [if_neg hend, List.drop_eq_getElem_cons hlt]
    have hget : fileContents[it]? = some fileContents[it] := List.getElem?_eq_getElem hlt
    split
    · next hnone => rw [hnone] at hget; exact absurd hget (by simp)
    · next b hb =>
      obtain rfl : b = fileContents[it] := by rw [hget] at hb; exact (Option.some.inj hb).symm
      -- the recursive calls at `it + 1` and `it + 2`, as instances of the hypothesis
      have ih1 : ∀ r st, parseLoop fileContents (it + 1) r st
          = scan (it + 1) (fileContents.drop (it + 1)) r st :=
        fun r st => ih _ (by omega) (it + 1) r st (by omega) rfl
      have ih2 : it + 1 ≠ fileContents.length → ∀ r st, parseLoop fileContents (it + 2) r st
          = scan (it + 2) (fileContents.drop (it + 2)) r st :=
        fun hne r st => ih _ (by omega) (it + 2) r st (by omega) rfl
      by_cases hlast : it + 1 = fileContents.length
      · have hnil : fileContents.drop (it + 1) = [] := by rw [hlast, List.drop_length]
        rw [hnil] at ih1 ⊢
        unfold scan
        simp only [if_pos hlast, ih1]
      · have hlt' : it + 1 < fileContents.length := by omega
        have hcons : fileContents.drop (it + 1)
            = fileContents[it + 1] :: fileContents.drop (it + 2) :=
          List.drop_eq_getElem_cons hlt'
        have hderef : deref fileContents (it + 1) = .ok fileContents[it + 1] := by
          unfold deref; rw [List.getElem?_eq_getElem hlt']
        have ih2 := ih2 hlast
        rw [hcons] at ih1 ⊢
        unfold scan
        simp only [if_neg hlast, hderef, ih1, ih2]

theorem parseTree_eq_scan (ident rest : List UInt8) (b t : UInt8) (hid : ident.length = 4) :
    parseTree (ident ++ b :: t :: rest)
      = if b ≠ START then .error .InvalidOTBFormat
        else scan 6 rest (Node.mk [] 6 none t) [Node.mk [] 6 none t] := by
  have h4 : deref (ident ++ b :: t :: rest) identifierSize = .ok b := by
    unfold deref identifierSize
    rw [List.getElem?_append_right (by omega), hid]; rfl
  have h5 : deref (ident ++ b :: t :: rest) (identifierSize + 1) = .ok t := by
    unfold deref identifierSize
    rw [List.getElem?_append_right (by omega), hid]; rfl
  have hdrop : (ident ++ b :: t :: rest).drop 6 = rest := by
    rw [List.drop_append, hid, List.drop_eq_nil_of_le (by omega)]; rfl
  unfold parseTree
  simp only [h4, h5]
  by_cases hb : b ≠ START
  · rw [if_pos hb, if_pos hb]
  · rw [if_neg hb, if_neg hb, parseLoop_eq_scan _ _ _ _ (by simp [identifierSize, hid]; omega)]
    change scan 6 ((ident ++ b :: t :: rest).drop 6) (Node.mk [] 6 none t) [Node.mk [] 6 none t] = _
    rw [hdrop]

/-! ### Stepping the automaton -/

theorem not_control {b : UInt8} (h : isControl b = false) : b ≠ START ∧ b ≠ END ∧ b ≠ ESCAPE := by
  simp only [isControl, Bool.or_eq_false_iff, beq_eq_false_iff_ne] at h
  exact ⟨h.1.2, h.2, h.1.1⟩

theorem scan_plain {b : UInt8} (h : isControl b = false) (it : Nat) (rest : List UInt8) (root : Node)
    (st : List Node) : scan it (b :: rest) root st = scan (it + 1) rest root st := by
  obtain ⟨h1, h2, h3⟩ := not_control h
  rw [scan.eq_def]
  simp only [if_neg h1, if_neg h2, if_neg h3]

theorem scan_escape (b : UInt8) (it : Nat) (rest : List UInt8) (root : Node) (st : List Node) :
    scan it (ESCAPE :: b :: rest) root st = scan (it + 2) rest root st := by
  rw [scan.eq_def]
  simp only [if_neg (show ESCAPE ≠ START by decide), if_neg (show ESCAPE ≠ END by decide), ↓reduceIte]

theorem scan_start (t : UInt8) (it : Nat) (rest : List UInt8) (root n : Node) (st : List Node) :
    scan it (START :: t :: rest) root (n :: st)
      = scan (it + 2) rest root (Node.mk [] (it + 2) none t :: n.closeProps it :: st) := rfl

theorem scan_end_root (it : Nat) (rest : List UInt8) (root n : Node) :
    scan it (END :: rest) root [n] = scan (it + 1) rest (n.closeProps it) [] := by
  rw [scan.eq_def]
  simp only [if_neg (show END ≠ START by decide), ↓reduceIte]

theorem scan_end_child (it : Nat) (rest : List UInt8) (root n p : Node) (st : List Node) :
    scan it (END :: rest) root (n :: p :: st)
      = scan (it + 1) rest root (p.addChild (n.closeProps it) :: st) := by
  rw [scan.eq_def]
  simp only [if_neg (show END ≠ START by decide), ↓reduceIte]

theorem scan_inert {s : List UInt8} (hs : Stuffing.Inert ESCAPE isControl s) (it : Nat)
    (rest : List UInt8) (root : Node) (st : List Node) :
    scan it (s ++ rest) root st = scan (it + s.length) rest root st := by
  induction hs generalizing it with
  | nil => rfl
  | plain h _ ih =>
    rw [List.cons_append, scan_plain h, ih, List.length_cons]
    congr 1; omega
  | escaped b _ ih =>
    rw [List.cons_append, List.cons_append, scan_escape, ih, List.length_cons, List.length_cons]
    congr 1; omega

/-! ### The encoding -/

/-- What a file describes: a type byte, the property bytes and the children. -/
inductive Tree where
  | mk (type : UInt8) (props : List UInt8) (children : List Tree)

mutual

/-- `START`, the raw type byte, the escaped properties, the children in order, `END`. -/
def Tree.encode : Tree → List UInt8
  | .mk type props children =>
    START :: type :: (Stuffing.stuff ESCAPE isControl props ++ (encodeForest children ++ [END]))

/-- The encodings of the children, in order. -/
def encodeForest : List Tree → List UInt8
  | [] => []
  | t :: ts => t.encode ++ encodeForest ts

end

mutual

/-- The node the parser builds for `t` when its encoding starts at position `it`. -/
def Tree.nodeAt (it : Nat) : Tree → Node
  | .mk type props children =>
    let e := it + 2 + (Stuffing.stuff ESCAPE isControl props).length
    Node.mk (nodesAt e children) (it + 2) (some e) type

/-- The nodes of consecutive children, the first of which starts at position `it`. -/
def nodesAt (it : Nat) : List Tree → List Node
  | [] => []
  | t :: ts => t.nodeAt it :: nodesAt (it + t.encode.length) ts

end

theorem closeProps_of_children {n : Node} (h : n.children ≠ []) (it : Nat) :
    n.closeProps it = n := by
  unfold Node.closeProps
  rw [if_neg (by simpa using h)]

theorem closeProps_leaf (b : Nat) (e : Option Nat) (t : UInt8) (it : Nat) :
    (Node.mk [] b e t).closeProps it = Node.mk [] b (some it) t := rfl

mutual

/-- **One encoded child.** The automaton reads it completely, and what it leaves behind is the
child's node, attached to the node that was on top of the stack. -/
theorem scan_encode (t : Tree) (it : Nat) (rest : List UInt8) (root n : Node) (st : List Node) :
    scan it (t.encode ++ rest) root (n :: st)
      = scan (it + t.encode.length) rest root ((n.closeProps it).addChild (t.nodeAt it) :: st) := by
  obtain ⟨type, props, children⟩ := t
  rw [Tree.encode, List.cons_append, List.cons_append, scan_start, List.append_assoc,
    scan_inert (Stuffing.inert_stuff _ _ _), List.append_assoc]
  obtain ⟨m, hm, hscan⟩ := scan_encodeForest_leaf children
    (it + 2 + (Stuffing.stuff ESCAPE isControl props).length) (it + 2) type ([END] ++ rest) root
    (n.closeProps it :: st)
  rw [hscan, List.singleton_append, scan_end_child, hm]
  simp only [List.length_cons, List.length_append, List.length_nil, Tree.nodeAt]
  congr 1
  omega

theorem scan_encodeForest (ts : List Tree) (it : Nat) (c : Node) (cs : List Node) (b : Nat)
    (e : Option Nat) (type : UInt8) (rest : List UInt8) (root : Node) (st : List Node) :
    scan it (encodeForest ts ++ rest) root (Node.mk (c :: cs) b e type :: st)
      = scan (it + (encodeForest ts).length) rest root
          (Node.mk (c :: cs ++ nodesAt it ts) b e type :: st) := by
  cases ts with
  | nil => simp [encodeForest, nodesAt]
  | cons t ts =>
    rw [encodeForest, List.append_assoc, scan_encode t,
      closeProps_of_children (by simp [Node.children])]
    change scan _ _ _ (Node.mk (c :: (cs ++ [t.nodeAt it])) b e type :: st) = _
    rw [scan_encodeForest ts, List.length_append, nodesAt]
    simp only [List.cons_append, List.append_assoc, List.nil_append, Nat.add_assoc]

theorem scan_encodeForest_leaf (ts : List Tree) (it : Nat) (b : Nat) (type : UInt8)
    (rest : List UInt8) (root : Node) (st : List Node) :
    ∃ n : Node, n.closeProps (it + (encodeForest ts).length)
        = Node.mk (nodesAt it ts) b (some it) type ∧
      scan it (encodeForest ts ++ rest) root (Node.mk [] b none type :: st)
        = scan (it + (encodeForest ts).length) rest root (n :: st) := by
  cases ts with
  | nil => exact ⟨Node.mk [] b none type, by simp [encodeForest, nodesAt, closeProps_leaf],
      by simp [encodeForest]⟩
  | cons t ts =>
    refine ⟨Node.mk (nodesAt it (t :: ts)) b (some it) type,
      closeProps_of_children (by simp [Node.children, nodesAt]) _, ?_⟩
    rw [encodeForest, List.append_assoc, scan_encode t, closeProps_leaf]
    change scan _ _ _ (Node.mk [t.nodeAt it] b (some it) type :: st) = _
    rw [scan_encodeForest ts, List.length_append, nodesAt]
    simp only [List.cons_append, List.nil_append, Nat.add_assoc]

end

/-! ### Decoding undoes encoding -/

mutual

/-- A parsed node agrees with a tree: same type, same shape below, and `getProps` of a node with
non-empty properties yields exactly the property bytes. -/
def Node.Agrees (fileContents : List UInt8) : Node → Tree → Prop
  | .mk cs b e ty, .mk type props children =>
    ty = type ∧ (props ≠ [] → getProps fileContents (.mk cs b e ty) = some props) ∧
      AgreesForest fileContents cs children

/-- Same number of children, agreeing in order. -/
def AgreesForest (fileContents : List UInt8) : List Node → List Tree → Prop
  | [], [] => True
  | n :: ns, t :: ts => n.Agrees fileContents t ∧ AgreesForest fileContents ns ts
  | _, _ => False

end

mutual

theorem nodeAt_agrees (fileContents : List UInt8) (t : Tree) (it : Nat) (rest : List UInt8)
    (h : fileContents.drop it = t.encode ++ rest) : (t.nodeAt it).Agrees fileContents t := by
  obtain ⟨type, props, children⟩ := t
  have hbody : fileContents.drop (it + 2) = Stuffing.stuff ESCAPE isControl props
      ++ (encodeForest children ++ ([END] ++ rest)) := by
    rw [← List.drop_drop, h]
    simp [Tree.encode, List.append_assoc]
  have hforest : fileContents.drop (it + 2 + (Stuffing.stuff ESCAPE isControl props).length)
      = encodeForest children ++ ([END] ++ rest) := by
    rw [← List.drop_drop, hbody, List.drop_left]
  refine ⟨rfl, fun hne => ?_, nodesAt_agrees fileContents children _ _ hforest⟩
  -- the recorded range is exactly the stuffed properties
  have hlen : (Stuffing.stuff ESCAPE isControl props).length ≠ 0 := by
    rw [Ne, List.length_eq_zero_iff, Stuffing.stuff_eq_nil_iff]
    exact hne
  unfold getProps
  simp only [Node.propsEnd, Node.propsBegin, Nat.add_sub_cancel_left]
  rw [if_neg hlen, hbody, List.take_left, Stuffing.unstuff_stuff _ _ (by decide)]

theorem nodesAt_agrees (fileContents : List UInt8) (ts : List Tree) (it : Nat) (rest : List UInt8)
    (h : fileContents.drop it = encodeForest ts ++ rest) :
    AgreesForest fileContents (nodesAt it ts) ts := by
  cases ts with
  | nil => trivial
  | cons t ts =>
    rw [encodeForest, List.append_assoc] at h
    refine ⟨nodeAt_agrees fileContents t it _ h, nodesAt_agrees fileContents ts _ rest ?_⟩
    rw [← List.drop_drop, h, List.drop_left]

end

/-- **Decode undoes encode.** Parsing the identifier followed by the encoding of a tree yields the
node that `Tree.nodeAt` describes. -/
theorem parseTree_encode (ident : List UInt8) (hid : ident.length = 4) (t : Tree) :
    parseTree (ident ++ t.encode) = .ok (t.nodeAt 4) := by
  obtain ⟨type, props, children⟩ := t
  rw [Tree.encode, parseTree_eq_scan _ _ _ _ hid, if_neg (by simp),
    scan_inert (Stuffing.inert_stuff _ _ _)]
  obtain ⟨m, hm, hscan⟩ := scan_encodeForest_leaf children
    (6 + (Stuffing.stuff ESCAPE isControl props).length) 6 type [END] (Node.mk [] 6 none type) []
  rw [hscan, scan_end_root, hm]
  rfl

/-! ### What is accepted is well formed -/

/-- The bytes between the type byte of a node and its `END`: plain and escaped bytes, and complete
nodes, in any order. -/
inductive Balanced : List UInt8 → Prop
  | nil : Balanced []
  | plain {b : UInt8} {s : List UInt8} (h : isControl b = false) (hs : Balanced s) :
      Balanced (b :: s)
  | escaped (b : UInt8) {s : List UInt8} (hs : Balanced s) : Balanced (ESCAPE :: b :: s)
  | node (t : UInt8) {inner s : List UInt8} (hi : Balanced inner) (hs : Balanced s) :
      Balanced (START :: t :: (inner ++ END :: s))

/-- The rest of a file in which `d` nodes are open: `d` balanced pieces, each closed by an `END`, and
behind the last one nothing but inert bytes. -/
def Closes : Nat → List UInt8 → Prop
  | 0, s => Stuffing.Inert ESCAPE isControl s
  | d + 1, s => ∃ inner s', s = inner ++ END :: s' ∧ Balanced inner ∧ Closes d s'

theorem Closes.plain {b : UInt8} (hb : isControl b = false) {d : Nat} {s : List UInt8}
    (h : Closes d s) : Closes d (b :: s) := by
  cases d with
  | zero => exact Stuffing.Inert.plain hb h
  | succ d =>
    obtain ⟨inner, s', rfl, hi, hc⟩ := h
    exact ⟨b :: inner, s', rfl, .plain hb hi, hc⟩

theorem Closes.escaped (b : UInt8) {d : Nat} {s : List UInt8} (h : Closes d s) :
    Closes d (ESCAPE :: b :: s) := by
  cases d with
  | zero => exact Stuffing.Inert.escaped b h
  | succ d =>
    obtain ⟨inner, s', rfl, hi, hc⟩ := h
    exact ⟨ESCAPE :: b :: inner, s', rfl, .escaped b hi, hc⟩

theorem Closes.start (t : UInt8) {d : Nat} {s : List UInt8} (h : Closes (d + 2) s) :
    Closes (d + 1) (START :: t :: s) := by
  obtain ⟨inner, s', rfl, hi, inner', s'', rfl, hi', hc⟩ := h
  exact ⟨START :: t :: (inner ++ END :: inner'), s'', by simp, .node t hi hi', hc⟩

theorem Closes.close {d : Nat} {s : List UInt8} (h : Closes d s) : Closes (d + 1) (END :: s) :=
  ⟨[], s, rfl, .nil, h⟩

/-- A node whose property range, and that of every node below it, lies inside a file of `size`
bytes. -/
inductive Node.Within (size : Nat) : Node → Prop
  | mk {cs : List Node} {b e : Nat} {t : UInt8} (hb : b ≤ e) (he : e ≤ size)
      (hc : ∀ c ∈ cs, Node.Within size c) : Node.Within size (.mk cs b (some e) t)

/-- The property range of a node is fixed, and lies inside a file of `size` bytes. -/
def Node.Fixed (size : Nat) (n : Node) : Prop :=
  ∃ e, n.propsEnd = some e ∧ n.propsBegin ≤ e ∧ e ≤ size

/-- A node on the stack at position `it`: its finished children are inside the file, and its property
range is fixed as soon as there is one. -/
structure Node.Open (size it : Nat) (n : Node) : Prop where
  begin_le : n.propsBegin ≤ it
  children_within : ∀ c ∈ n.children, Node.Within size c
  fixed : n.children ≠ [] → n.Fixed size

theorem Node.Open.mono {size it it' : Nat} {n : Node} (h : n.Open size it) (hle : it ≤ it') :
    n.Open size it' :=
  ⟨Nat.le_trans h.begin_le hle, h.children_within, h.fixed⟩

theorem Node.Open.fresh (size it : Nat) (t : UInt8) : (Node.mk [] it none t).Open size it :=
  ⟨Nat.le_refl _, by simp [Node.children], by simp [Node.children]⟩

theorem closeProps_children (n : Node) (it : Nat) : (n.closeProps it).children = n.children := by
  unfold Node.closeProps
  split <;> rfl

theorem closeProps_propsBegin (n : Node) (it : Nat) :
    (n.closeProps it).propsBegin = n.propsBegin := by
  unfold Node.closeProps
  split <;> rfl

theorem Node.Open.closeProps_fixed {size it : Nat} {n : Node} (h : n.Open size it)
    (hle : it ≤ size) : (n.closeProps it).Fixed size := by
  unfold Node.closeProps
  split
  · exact ⟨it, rfl, h.begin_le, hle⟩
  · next hne => exact h.fixed (by simpa using hne)

theorem Node.Open.closeProps {size it : Nat} {n : Node} (h : n.Open size it) (hle : it ≤ size) :
    (n.closeProps it).Open size it := by
  refine ⟨?_, ?_, fun _ => h.closeProps_fixed hle⟩
  · rw [closeProps_propsBegin]; exact h.begin_le
  · rw [closeProps_children]; exact h.children_within

theorem Node.Open.within {size it : Nat} {n : Node} (h : n.Open size it) (hle : it ≤ size) :
    (n.closeProps it).Within size := by
  have hc := (h.closeProps hle).children_within
  have hf := h.closeProps_fixed hle
  generalize n.closeProps it = m at hc hf
  obtain ⟨cs, b, e', t⟩ := m
  obtain ⟨e, he, hb, hs⟩ := hf
  obtain rfl : e' = some e := he
  exact .mk hb hs hc

theorem Node.Open.addChild {size it : Nat} {n c : Node} (h : n.Open size it) (hf : n.Fixed size)
    (hc : c.Within size) : (n.addChild c).Open size it := by
  refine ⟨h.begin_le, fun d hd => ?_, fun _ => hf⟩
  rcases List.mem_append.mp hd with hd | hd
  · exact h.children_within d hd
  · rw [List.mem_singleton.mp hd]; exact hc

/-- The stack at position `it`: every node is open, and every node below the top has its range
fixed, since the child above it has been opened. -/
def StackOk (size it : Nat) : List Node → Prop
  | [] => True
  | n :: parents => n.Open size it ∧ ∀ p ∈ parents, p.Open size it ∧ p.Fixed size

theorem StackOk.mono {size it it' : Nat} {st : List Node} (h : StackOk size it st) (hle : it ≤ it') :
    StackOk size it' st := by
  cases st with
  | nil => trivial
  | cons n ps => exact ⟨h.1.mono hle, fun p hp => ⟨(h.2 p hp).1.mono hle, (h.2 p hp).2⟩⟩

theorem StackOk.start {size it : Nat} {n : Node} {ps : List Node} (h : StackOk size it (n :: ps))
    (hle : it ≤ size) (t : UInt8) :
    StackOk size (it + 2) (Node.mk [] (it + 2) none t :: n.closeProps it :: ps) := by
  refine ⟨.fresh size (it + 2) t, fun p hp => ?_⟩
  rcases List.mem_cons.mp hp with rfl | hp
  · exact ⟨(h.1.closeProps hle).mono (by omega), h.1.closeProps_fixed hle⟩
  · exact ⟨(h.2 p hp).1.mono (by omega), (h.2 p hp).2⟩

theorem StackOk.close {size it : Nat} {n p : Node} {ps : List Node}
    (h : StackOk size it (n :: p :: ps)) (hle : it ≤ size) :
    StackOk size (it + 1) (p.addChild (n.closeProps it) :: ps) := by
  have hp := h.2 p List.mem_cons_self
  refine ⟨(hp.1.addChild hp.2 (h.1.within hle)).mono (by omega), fun q hq => ?_⟩
  have hq := h.2 q (List.mem_cons_of_mem p hq)
  exact ⟨hq.1.mono (by omega), hq.2⟩

/-- **Acceptance.** Whatever the automaton accepts closes every open node, in a balanced way, and the
tree it returns refers to positions inside the file only. -/
theorem scan_accepts {size it : Nat} {s : List UInt8} {root r : Node} {st : List Node}
    (hsize : it + s.length = size) (hst : StackOk size it st)
    (hroot : st = [] → root.Within size) (h : scan it s root st = .ok r) :
    Closes st.length s ∧ r.Within size := by
  fun_induction scan it s root st with
  | case1 it root st hempty =>
    -- end of file: the stack is empty, so the root is closed
    obtain rfl : st = [] := by simpa using hempty
    obtain rfl : root = r := by simpa using h
    exact ⟨.nil, hroot rfl⟩
  | case5 it root n ps t rest ih =>
    simp only [List.length_cons] at hsize
    obtain ⟨hc, hr⟩ := ih (by omega) (hst.start (by omega) t) (by simp) h
    exact ⟨hc.start t, hr⟩
  | case7 it rest root n hne ih =>
    -- the `END` of the root: what follows must be inert
    simp only [List.length_cons] at hsize
    obtain ⟨hc, hr⟩ := ih (by omega) trivial (fun _ => hst.1.within (by omega)) h
    exact ⟨hc.close, hr⟩
  | case8 it rest root n p ps hne ih =>
    simp only [List.length_cons] at hsize
    obtain ⟨hc, hr⟩ := ih (by omega) (hst.close (by omega)) (by simp) h
    exact ⟨hc.close, hr⟩
  | case10 it root st b rest h1 h2 ih =>
    simp only [List.length_cons] at hsize
    obtain ⟨hc, hr⟩ := ih (by omega) (hst.mono (by omega)) hroot h
    exact ⟨hc.escaped b, hr⟩
  | case11 it b rest root st h1 h2 h3 ih =>
    simp only [List.length_cons] at hsize
    obtain ⟨hc, hr⟩ := ih (by omega) (hst.mono (by omega)) hroot h
    exact ⟨hc.plain (by simp [isControl, h1, h2, h3]), hr⟩
  | _ => simp at h

theorem scan_ne_outOfBounds (it : Nat) (s : List UInt8) (root : Node) (st : List Node) :
    scan it s root st ≠ .error .outOfBounds := by
  fun_induction scan it s root st <;> simp_all

theorem exists_header {fileContents : List UInt8} (h : 6 ≤ fileContents.length) :
    ∃ ident b t rest, ident.length = 4 ∧ fileContents = ident ++ b :: t :: rest := by
  refine ⟨fileContents.take 4, fileContents[4], fileContents[5], fileContents.drop 6, ?_, ?_⟩
  · rw [List.length_take]; omega
  · rw [← List.drop_eq_getElem_cons (by omega), ← List.drop_eq_getElem_cons (by omega),
      List.take_append_drop]

theorem parseTree_ne_outOfBounds {fileContents : List UInt8}
    (h : minimalSize < fileContents.length) : parseTree fileContents ≠ .error .outOfBounds := by
  obtain ⟨ident, b, t, rest, hid, rfl⟩ :=
    exists_header (Nat.le_of_lt (Nat.lt_of_succ_lt h))
  rw [parseTree_eq_scan _ _ _ _ hid]
  split
  · simp
  · exact scan_ne_outOfBounds _ _ _ _

theorem Loader.minimalSize_lt {fileContents acceptedIdentifier : List UInt8}
    (h : Loader.accepts fileContents acceptedIdentifier = true) : minimalSize < fileContents.length := by
  unfold Loader.accepts at h
  rw [Bool.and_eq_true] at h
  exact of_decide_eq_true h.1

/-- **Accepted files are well formed**: the identifier, a balanced root node, inert bytes behind its
`END`, and a result whose property ranges all lie inside the file. -/
theorem parseTree_accepts {fileContents : List UInt8} {root : Node}
    (h : parseTree fileContents = .ok root) :
    ∃ ident t inner rest, ident.length = identifierSize ∧
      fileContents = ident ++ START :: t :: (inner ++ END :: rest) ∧ Balanced inner ∧
      Stuffing.Inert ESCAPE isControl rest ∧ root.Within fileContents.length := by
  have hlen : 6 ≤ fileContents.length := by
    by_contra hlt
    have h5 : deref fileContents (identifierSize + 1) = .error .outOfBounds := by
      unfold deref identifierSize
      rw [List.getElem?_eq_none (by omega)]
    unfold parseTree at h
    simp only [h5] at h
    split at h
    · exact absurd h (by simp)
    · split at h <;> exact absurd h (by simp)
  obtain ⟨ident, b, t, rest, hid, rfl⟩ := exists_header hlen
  rw [parseTree_eq_scan _ _ _ _ hid] at h
  split at h
  · exact absurd h (by simp)
  · next hb =>
    obtain rfl : b = START := by simpa using hb
    have hsize : 6 + rest.length = (ident ++ START :: t :: rest).length := by
      simp [hid]; omega
    have hst : StackOk (ident ++ START :: t :: rest).length 6 [Node.mk [] 6 none t] :=
      ⟨.fresh _ 6 t, by simp⟩
    obtain ⟨⟨inner, rest', hrest, hi, hc⟩, hw⟩ := scan_accepts hsize hst (by simp) h
    exact ⟨ident, t, inner, rest', hid, by rw [hrest], hi, hc, hw⟩

/-- **The OTB node format is a codec.** Decoding the identifier followed by the encoding of any tree
succeeds with a tree of the same shape and types whose property bytes `getProps` recovers; whatever
is accepted is balanced up to the `END` closing the root and refers to positions inside the file;
and no file the constructor lets through makes the parser read outside it. -/
theorem parseTree_codec :
    (∀ (ident : List UInt8) (t : Tree), ident.length = identifierSize →
      ∃ root, parseTree (ident ++ t.encode) = .ok root ∧ root.Agrees (ident ++ t.encode) t) ∧
    (∀ (fileContents : List UInt8) (root : Node), parseTree fileContents = .ok root →
      ∃ ident t inner rest, ident.length = identifierSize ∧
        fileContents = ident ++ START :: t :: (inner ++ END :: rest) ∧ Balanced inner ∧
        Stuffing.Inert ESCAPE isControl rest ∧ root.Within fileContents.length) ∧
    (∀ fileContents acceptedIdentifier : List UInt8,
      Loader.accepts fileContents acceptedIdentifier = true →
      parseTree fileContents ≠ .error .outOfBounds) := by
  refine ⟨fun ident t hid => ?_, fun _ _ h => parseTree_accepts h,
    fun _ _ h => parseTree_ne_outOfBounds (Loader.minimalSize_lt h)⟩
  refine ⟨t.nodeAt 4, parseTree_encode ident hid t, ?_⟩
  refine nodeAt_agrees _ t 4 [] ?_
  rw [List.append_nil, show (4 : Nat) = ident.length from hid.symm]
  exact List.drop_left

/-- The codec at a root of type `END` with a child of type `START`, both with control bytes among
their properties. -/
theorem parseTree_codec_control_bytes :
    ∃ root, parseTree ([0, 0, 0, 0] ++ (Tree.mk END [ESCAPE, 7] [.mk START [END] []]).encode)
        = .ok root ∧
      root.Agrees ([0, 0, 0, 0] ++ (Tree.mk END [ESCAPE, 7] [.mk START [END] []]).encode)
        (Tree.mk END [ESCAPE, 7] [.mk START [END] []]) :=
  parseTree_codec.1 [0, 0, 0, 0] (Tree.mk END [ESCAPE, 7] [.mk START [END] []]) rfl

end Moonlight.OTB
