import MuduoIm.Data.Base64
import MuduoIm.Data.Suffixes
import MuduoIm.Data.Table

namespace MuduoIm.Moderation

open Data

/-! # The automaton of sensitive words

The nodes of the automaton are a vector whose first entry is the root.  An index
outside it reads as an empty node, which no run of the source reaches.
-/

namespace AhoCorasick

structure Node where
  children : Table UInt8 ℕ := ∅
  fail : ℕ := 0
  words : List (Bytes × Bytes) := []

/-- The start is an integer, so that an underflow of `i + 1 - w.size()` would show. -/
structure Match where
  start : ℤ
  length : ℕ
  word : Bytes
  category : Bytes
deriving DecidableEq

/-- The traversal of an unordered map: each node lists its children in some order. -/
structure Traversal where
  order : ℕ → Table UInt8 ℕ → List (Sigma (fun _ : UInt8 => ℕ))
  perm : ∀ node children, (order node children).Perm children.entries

/-- The traversal in the order of the entries. -/
def Traversal.plain : Traversal where
  order _ children := children.entries
  perm _ _ := List.Perm.refl _

def node (nodes : List Node) (index : ℕ) : Node :=
  nodes.getD index ({} : Node)

/-- A fresh automaton has the root alone. -/
def fresh : List Node := [({} : Node)]

/-- One letter of `addWord`: the child is appended where it is missing. -/
def step (nodes : List Node) (cur : ℕ) (c : UInt8) : List Node × ℕ :=
  match (node nodes cur).children.lookup c with
  | none =>
      ((nodes ++ [({} : Node)]).modify cur
        (fun node => { node with children := node.children.insert c nodes.length }),
        nodes.length)
  | some next => (nodes, next)

def descend (nodes : List Node) (cur : ℕ) : Bytes → List Node × ℕ
  | [] => (nodes, cur)
  | c :: word => descend (step nodes cur c).1 (step nodes cur c).2 word

def addWord (nodes : List Node) (word category : Bytes) : List Node :=
  if word = [] then nodes
  else
    (descend nodes 0 word).1.modify (descend nodes 0 word).2
      (fun node => { node with words := node.words ++ [(word, category)] })

def addWords (nodes : List Node) (calls : List (Bytes × Bytes)) : List Node :=
  calls.foldl (fun nodes call => addWord nodes call.1 call.2) nodes

/-- The loop that follows failure links to a node with a child for the letter.
`none` is a loop that has not ended within its budget. -/
def follow (nodes : List Node) (c : UInt8) : ℕ → ℕ → Option ℕ
  | 0, _ => none
  | budget + 1, f =>
      if f ≠ 0 ∧ (node nodes f).children.lookup c = none then
        follow nodes c budget (node nodes f).fail
      else some f

def setFail (nodes : List Node) (index fail : ℕ) : List Node :=
  nodes.modify index (fun node => { node with fail := fail })

/-- The child for the letter at the end of the failure links, unless it is the child itself. -/
def failTarget (nodes : List Node) (f : ℕ) (child : Sigma (fun _ : UInt8 => ℕ)) : ℕ :=
  match (node nodes f).children.lookup child.1 with
  | some next => if next ≠ child.2 then next else 0
  | none => 0

/-- The failure link is set, and the words found along it are copied. -/
def inherit (nodes : List Node) (child fail : ℕ) : List Node :=
  let linked := setFail nodes child fail
  if fail ≠ 0 then
    linked.modify child
      (fun entry => { entry with words := entry.words ++ (node linked fail).words })
  else linked

/-- One round of the inner loop of `build`, for the node `cur` and one of its children. -/
def link (cur : ℕ) (nodes : List Node) (child : Sigma (fun _ : UInt8 => ℕ)) :
    Option (List Node) := do
  let f ← follow nodes child.1 nodes.length (node nodes cur).fail
  some (inherit nodes child.2 (failTarget nodes f child))

/-- The loop over the queue of `build`. -/
def linkAll (traversal : Traversal) : ℕ → List ℕ → List Node → Option (List Node)
  | _, [], nodes => some nodes
  | 0, _ :: _, _ => none
  | budget + 1, cur :: queue, nodes => do
      let children := traversal.order cur (node nodes cur).children
      let linked ← children.foldlM (link cur) nodes
      linkAll traversal budget (queue ++ children.map Sigma.snd) linked

def build (traversal : Traversal) (nodes : List Node) : Option (List Node) :=
  let rooted := setFail nodes 0 0
  let children := (traversal.order 0 (node rooted 0).children).map Sigma.snd
  linkAll traversal nodes.length children
    (children.foldl (fun nodes child => setFail nodes child 0) rooted)

/-- The node reached from `cur` by a letter of the text. -/
def advance (nodes : List Node) (cur : ℕ) (c : UInt8) : Option ℕ := do
  let f ← follow nodes c nodes.length cur
  some (((node nodes f).children.lookup c).getD f)

/-- The match of an entry whose word ends at the letter `i`. -/
def matchAt (i : ℕ) (entry : Bytes × Bytes) : Match where
  start := (i : ℤ) + 1 - entry.1.length
  length := entry.1.length
  word := entry.1
  category := entry.2

/-- The loop of `search` at the letter `i`. -/
def scan (nodes : List Node) : ℕ → ℕ → Bytes → Option (List Match)
  | _, _, [] => some []
  | cur, i, c :: text => do
      let next ← advance nodes cur c
      let later ← scan nodes next (i + 1) text
      some ((node nodes next).words.map (matchAt i) ++ later)

def search (nodes : List Node) (text : Bytes) : Option (List Match) :=
  scan nodes 0 0 text

end AhoCorasick

end MuduoIm.Moderation
