import ProjectPl.JsonCursor

/-!
The trees that `parse` is to rebuild. An object prints as its members between commas; a list of
nodes shows it under a parent if the children have its keys, its values and its order, and then
`find` follows every path of keys as the object does.
-/

namespace ProjectPl.Json

open CppString

/-- A word over lower-case letters and digits. -/
structure Word where
  chars : List Char
  some : chars ≠ []
  plain : ∀ char ∈ chars, char.isLower ∨ char.isDigit

/-- The members of an object, one at least, in their order. -/
inductive Object
  | lastLeaf (key value : Word)
  | lastObject (key : Word) (inner : Object)
  | leaf (key value : Word) (others : Object)
  | object (key : Word) (inner others : Object)

inductive Entry
  | leaf (value : Word)
  | object (members : Object)

namespace Object

def print : Object → List Char
  | lastLeaf key value => key.chars ++ ':' :: value.chars
  | lastObject key inner => key.chars ++ ':' :: '{' :: (inner.print ++ ['}'])
  | leaf key value others => key.chars ++ ':' :: (value.chars ++ ',' :: others.print)
  | object key inner others =>
      key.chars ++ ':' :: '{' :: (inner.print ++ '}' :: ',' :: others.print)

def hasObject : Object → Bool
  | lastLeaf _ _ => false
  | lastObject _ _ => true
  | leaf _ _ others => others.hasObject
  | object _ _ _ => true

def lookup (findkey : List Char) : Object → Option Entry
  | lastLeaf key value => if key.chars = findkey then some (.leaf value) else none
  | lastObject key inner => if key.chars = findkey then some (.object inner) else none
  | leaf key value others =>
      if key.chars = findkey then some (.leaf value) else others.lookup findkey
  | object key inner others =>
      if key.chars = findkey then some (.object inner) else others.lookup findkey

end Object

def Entry.find : Entry → List Char → Option Entry
  | leaf _, _ => none
  | object members, findkey => members.lookup findkey

structure Document where
  root : Object
  short : ('{' :: (root.print ++ ['}'])).length < npos

def Document.text (document : Document) : Text Char := ⟨_, document.short⟩

structure Child (nodes : List Node) (parent id : Nat) (key value : List Char) : Prop where
  behind : parent < id
  made : id < nodes.length
  isKey : (nodes.getD id {}).key = key
  isValue : (nodes.getD id {}).value = value
  isParent : (nodes.getD id {}).pParent = some parent

/-- These children of a parent are an object. -/
def Shows (nodes : List Node) : Object → Nat → List Nat → Prop
  | .lastLeaf key value, parent, ids => ∃ id, ids = [id] ∧
      Child nodes parent id key.chars value.chars ∧ (nodes.getD id {}).nodeList = []
  | .lastObject key inner, parent, ids => ∃ id, ids = [id] ∧
      Child nodes parent id key.chars [] ∧ Shows nodes inner id (nodes.getD id {}).nodeList
  | .leaf key value others, parent, ids => ∃ id rest, ids = id :: rest ∧
      Child nodes parent id key.chars value.chars ∧ (nodes.getD id {}).nodeList = [] ∧
        Shows nodes others parent rest
  | .object key inner others, parent, ids => ∃ id rest, ids = id :: rest ∧
      Child nodes parent id key.chars [] ∧ Shows nodes inner id (nodes.getD id {}).nodeList ∧
        Shows nodes others parent rest

def ShowsEntry (nodes : List Node) (id : Nat) : Entry → Prop
  | .leaf value => (nodes.getD id {}).value = value.chars ∧ (nodes.getD id {}).nodeList = []
  | .object members => Shows nodes members id (nodes.getD id {}).nodeList

/-- `parse` rebuilds the tree, and `find` follows each path of keys from the first node on. -/
def Rebuilds (document : Document) : Prop :=
  ∃ parser, Parses document.text (.ok parser) ∧
    ShowsEntry parser.nodes 0 (.object document.root) ∧
    ∀ path : List (List Char), Option.Rel (ShowsEntry parser.nodes)
      (path.foldlM (find parser.nodes) 0) (path.foldlM Entry.find (.object document.root))

section Find

variable {nodes : List Node}

theorem Object.lookup_nil (object : Object) : object.lookup [] = none := by
  induction object with
  | lastLeaf key value => exact if_neg key.some
  | lastObject key inner => exact if_neg key.some
  | leaf key value others ih => exact (if_neg key.some).trans ih
  | object key inner others _ ih => exact (if_neg key.some).trans ih

theorem Child.find? {parent id : Nat} {key value findkey : List Char} {rest : List Nat}
    {later : Option Entry} (child : Child nodes parent id key value) (entry : Entry)
    (shown : ShowsEntry nodes id entry)
    (others : Option.Rel (ShowsEntry nodes)
      (rest.find? fun child => (nodes.getD child {}).checkKey findkey) later) :
    Option.Rel (ShowsEntry nodes)
      ((id :: rest).find? fun child => (nodes.getD child {}).checkKey findkey)
      (if key = findkey then some entry else later) := by
  rw [List.find?_cons, Node.checkKey, child.isKey]
  by_cases same : key = findkey
  · rw [if_pos same, decide_eq_true same]
    exact .some shown
  · rw [if_neg same, decide_eq_false same]
    exact others

theorem Shows.find? {object : Object} {parent : Nat} {ids : List Nat}
    (shown : Shows nodes object parent ids) (findkey : List Char) :
    Option.Rel (ShowsEntry nodes)
      (ids.find? fun child => (nodes.getD child {}).checkKey findkey)
      (object.lookup findkey) := by
  induction object generalizing ids with
  | lastLeaf key value =>
      obtain ⟨id, rfl, child, none⟩ := shown
      exact child.find? (.leaf value) ⟨child.isValue, none⟩ .none
  | lastObject key inner _ =>
      obtain ⟨id, rfl, child, within⟩ := shown
      exact child.find? (.object inner) within .none
  | leaf key value others ih =>
      obtain ⟨id, rest, rfl, child, none, more⟩ := shown
      exact child.find? (.leaf value) ⟨child.isValue, none⟩ (ih more)
  | object key inner others _ ih =>
      obtain ⟨id, rest, rfl, child, within, more⟩ := shown
      exact child.find? (.object inner) within (ih more)

theorem find_cons {id child : Nat} {children : List Nat} {findkey : List Char}
    (some : findkey ≠ []) (isList : (nodes.getD id {}).nodeList = child :: children) :
    find nodes id findkey =
      (child :: children).find? fun child => (nodes.getD child {}).checkKey findkey := by
  have long : ¬findkey.length = 0 := List.length_eq_zero_iff.not.mpr some
  rw [find, isList]
  exact (if_neg long).trans (if_neg (Nat.succ_ne_zero _))

theorem find_nil {id : Nat} (none : (nodes.getD id {}).nodeList = []) (findkey : List Char) :
    find nodes id findkey = .none := by
  rw [find, none]
  exact ite_self _

theorem ShowsEntry.find {id : Nat} {entry : Entry} (shown : ShowsEntry nodes id entry)
    (findkey : List Char) :
    Option.Rel (ShowsEntry nodes) (find nodes id findkey) (entry.find findkey) := by
  cases entry with
  | leaf value =>
      rw [find_nil shown.2]
      exact .none
  | object members =>
      by_cases empty : findkey = []
      · have stops : Json.find nodes id findkey = none :=
          if_pos (List.length_eq_zero_iff.mpr empty)
        rw [stops, empty, Entry.find, members.lookup_nil]
        exact .none
      · have found := Shows.find? shown findkey
        cases isList : (nodes.getD id {}).nodeList with
        | nil =>
            rw [isList] at found
            rw [find_nil isList]
            exact found
        | cons child children =>
            rw [isList] at found
            rw [find_cons empty isList]
            exact found

theorem ShowsEntry.path {id : Nat} {entry : Entry} (shown : ShowsEntry nodes id entry)
    (path : List (List Char)) : Option.Rel (ShowsEntry nodes)
      (path.foldlM (Json.find nodes) id) (path.foldlM Entry.find entry) := by
  induction path generalizing id entry with
  | nil => exact .some shown
  | cons findkey path ih =>
      rw [List.foldlM_cons, List.foldlM_cons]
      have here := shown.find findkey
      revert here
      generalize Json.find nodes id findkey = next
      generalize entry.find findkey = found
      intro here
      cases here with
      | none => exact .none
      | some shown => exact ih shown

end Find

end ProjectPl.Json
