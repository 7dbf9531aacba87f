import Mathlib.Data.List.Nodup
import Mathlib.Data.List.Perm.Basic

/-!
# Snapshots of a page

`formatAXTree` of `snapshot.ts`: the accessibility nodes of a page as indented lines, those that can
be acted on with references. The walk over the nodes has one unit of fuel for each of them.
-/

namespace CrabbyKit.Browser.Snapshot

open List

/-- `AXNode`, with the values of its properties as they print. -/
structure AXNode where
  nodeId : String
  ignored : Bool := false
  role : Option String := none
  name : Option String := none
  properties : List (String × String) := []
  childIds : Option (List String) := none
  backendDOMNodeId : Option Nat := none
  deriving DecidableEq, Repr

def interactiveRoles : List String :=
  ["button", "link", "textbox", "checkbox", "radio", "combobox", "listbox", "menuitem",
    "menuitemcheckbox", "menuitemradio", "option", "searchbox", "slider", "spinbutton", "switch",
    "tab", "treeitem"]

def contentRoles : List String :=
  ["heading", "cell", "gridcell", "columnheader", "rowheader", "listitem", "article", "region",
    "main", "navigation"]

def shownProperties : List String :=
  ["level", "checked", "expanded", "selected", "disabled", "required"]

structure SnapshotOptions where
  interactive : Bool := false
  maxDepth : Option Nat := none
  deriving DecidableEq, Repr

/-- An entry of `RefMap`. -/
structure RefEntry where
  nodeId : String
  backendDOMNodeId : Option Nat
  role : String
  name : String
  deriving DecidableEq, Repr

/-- A line: its indentation, its node, and the number of its reference. -/
structure Line where
  depth : Nat
  node : AXNode
  ref : Option Nat
  deriving DecidableEq, Repr

/-- `lines`, `refs` and `refCounter`. -/
structure Output where
  lines : List Line := []
  refs : List (Nat × RefEntry) := []
  refCounter : Nat := 0
  deriving DecidableEq, Repr

variable (toLowerCase : String → String)

namespace AXNode

def roleLower (node : AXNode) : String := toLowerCase (node.role.getD "unknown")

def isInteractive (node : AXNode) : Bool := interactiveRoles.contains (node.roleLower toLowerCase)

def isContent (node : AXNode) : Bool := contentRoles.contains (node.roleLower toLowerCase)

def isWebArea (node : AXNode) : Bool :=
  ["rootwebarea", "webarea"].contains (node.roleLower toLowerCase)

/-- What `refs` says of a node. -/
def refEntry (node : AXNode) : RefEntry :=
  ⟨node.nodeId, node.backendDOMNodeId, node.roleLower toLowerCase, node.name.getD ""⟩

end AXNode

/-- `childrenOf`: of several nodes with one id, the last one that has children counts. -/
def childrenOf (nodes : List AXNode) (nodeId : String) : List AXNode :=
  match nodes.reverse.find? fun n => n.nodeId = nodeId && n.childIds.isSome with
  | some node => (node.childIds.getD []).filterMap fun id => nodes.find? fun n => n.nodeId = id
  | none => []

/-- A node gets its line, and a reference if it is interactive or content. -/
def Output.push (depth : Nat) (out : Output) (node : AXNode) : Output :=
  if node.isInteractive toLowerCase || node.isContent toLowerCase then
    { lines := out.lines ++ [⟨depth, node, some (out.refCounter + 1)⟩]
      refs := out.refs ++ [(out.refCounter + 1, node.refEntry toLowerCase)]
      refCounter := out.refCounter + 1 }
  else { out with lines := out.lines ++ [⟨depth, node, none⟩] }

def walk (options : SnapshotOptions) (nodes : List AXNode) :
    Nat → Nat → Output → AXNode → Output
  | 0, _, out, _ => out
  | fuel + 1, depth, out, node =>
    if node.ignored then out
    else if options.maxDepth.any (· < depth) then out
    else
      let children := childrenOf nodes node.nodeId
      if node.isWebArea toLowerCase then children.foldl (walk options nodes fuel depth) out
      else if options.interactive && !node.isInteractive toLowerCase then
        children.foldl (walk options nodes fuel depth) out
      else children.foldl (walk options nodes fuel (depth + 1)) (out.push toLowerCase depth node)

def Line.render (line : Line) : String :=
  let name := line.node.name.getD ""
  String.join (List.replicate line.depth "  ") ++ "- " ++ line.node.role.getD "unknown" ++
    (if name = "" then "" else " \"" ++ name ++ "\"") ++
    (line.ref.elim "" fun ref => " [ref=e" ++ Nat.repr ref ++ "]") ++
    String.join ((line.node.properties.filter fun prop => shownProperties.contains prop.1).map
      fun prop => " [" ++ prop.1 ++ "=" ++ prop.2 ++ "]")

/-- What the walk from the first node puts out. -/
def outputOf (options : SnapshotOptions) (nodes : List AXNode) : Output :=
  match nodes with
  | [] => {}
  | root :: _ => walk toLowerCase options nodes nodes.length 0 {} root

def formatAXTree (nodes : List AXNode) (options : SnapshotOptions) :
    String × List (String × RefEntry) :=
  let out := outputOf toLowerCase options nodes
  let tree := "\n".intercalate (out.lines.map Line.render)
  (if tree = "" then
      if nodes ≠ [] ∧ options.interactive then "(no interactive elements)" else "(empty)"
    else tree, out.refs.map fun ref => ("e" ++ Nat.repr ref.1, ref.2))

/-- Nodes with their children, as the first of them, what is below it and its right neighbours. -/
inductive Forest where
  | nil
  | cons (node : AXNode) (below beside : Forest)

namespace Forest

def roots : Forest → List AXNode
  | nil => []
  | cons node _ beside => node :: beside.roots

/-- The nodes in tree order. -/
def preorder : Forest → List AXNode
  | nil => []
  | cons node below beside => node :: (below.preorder ++ beside.preorder)

def Describes (nodes : List AXNode) : Forest → Prop
  | nil => True
  | cons node below beside =>
    node ∈ nodes ∧ childrenOf nodes node.nodeId = below.roots ∧ below.Describes nodes ∧
      beside.Describes nodes

/-- No ignored node has an interactive node below it that is not ignored. -/
def Clear : Forest → Prop
  | nil => True
  | cons node below beside =>
    (node.ignored = true →
      ∀ n ∈ below.preorder, n.isInteractive toLowerCase = true → n.ignored = true) ∧
    below.Clear ∧ beside.Clear

/-- The nodes that are not ignored and not below an ignored one. -/
def reached : Forest → List AXNode
  | nil => []
  | cons node below beside =>
    (if node.ignored then [] else node :: below.reached) ++ beside.reached

def listed (interactive : Bool) (depth : Nat) : Forest → List (Nat × AXNode)
  | nil => []
  | cons node below beside =>
    (if node.ignored then []
      else if node.isWebArea toLowerCase || (interactive && !node.isInteractive toLowerCase) then
        below.listed interactive depth
      else (depth, node) :: below.listed interactive (depth + 1)) ++
    beside.listed interactive depth

def height : Forest → Nat
  | nil => 0
  | cons _ below beside => max (below.height + 1) beside.height

end Forest

/-- What a snapshot shows of a tree of nodes: every control once, references that are distinct and
lead to their nodes, in tree order, and the same controls in both modes. -/
structure SnapshotLaw (nodes : List AXNode) (tree : Forest) : Prop where
  complete : ∀ interactive, ∀ n ∈ tree.preorder, n.isInteractive toLowerCase = true →
    n.ignored = false →
    ∃ line, (outputOf toLowerCase { interactive } nodes).lines.filter
      (fun l => l.node.nodeId = n.nodeId) = [line] ∧ line.node = n ∧ line.ref.isSome = true
  distinct : ∀ interactive,
    ((outputOf toLowerCase { interactive } nodes).refs.map Prod.fst).Nodup
  mapped : ∀ interactive, (outputOf toLowerCase { interactive } nodes).refs =
    (outputOf toLowerCase { interactive } nodes).lines.filterMap fun line =>
      line.ref.map fun ref => (ref, line.node.refEntry toLowerCase)
  ordered : ∀ interactive,
    ((outputOf toLowerCase { interactive } nodes).lines.map Line.node).Sublist tree.preorder
  agree : (outputOf toLowerCase { interactive := true } nodes).lines.map Line.node =
    ((outputOf toLowerCase {} nodes).lines.map Line.node).filter (·.isInteractive toLowerCase)

variable {toLowerCase} {nodes : List AXNode}

theorem not_isWebArea {node : AXNode} (h : node.isInteractive toLowerCase = true) :
    node.isWebArea toLowerCase = false := by
  have hroles : ∀ role ∈ interactiveRoles, ["rootwebarea", "webarea"].contains role = false := by
    decide
  exact hroles _ (contains_iff_mem.mp h)

/-- The lines of a listing, one after the other. -/
def Output.pushAll (toLowerCase : String → String) (out : Output) (listing : List (Nat × AXNode)) :
    Output :=
  listing.foldl (fun out line => out.push toLowerCase line.1 line.2) out

variable {tree : Forest}

theorem foldl_walk (h : tree.Describes nodes) (interactive : Bool) {fuel : Nat}
    (hfuel : tree.height ≤ fuel) (depth : Nat) (out : Output) :
    tree.roots.foldl (walk toLowerCase { interactive } nodes fuel depth) out =
      out.pushAll toLowerCase (tree.listed toLowerCase interactive depth) := by
  induction tree generalizing fuel depth out with
  | nil => rfl
  | cons node below beside ihbelow ihbeside =>
    obtain ⟨-, hchildren, hbelow, hbeside⟩ := h
    simp only [Forest.height, Nat.max_le] at hfuel
    obtain ⟨fuel, rfl⟩ : ∃ n, fuel = n + 1 :=
      Nat.exists_eq_add_one.mpr (Nat.lt_of_succ_le (Nat.le_of_add_left_le hfuel.1))
    have hlow : below.height ≤ fuel := Nat.le_of_succ_le_succ hfuel.1
    have hnode : walk toLowerCase { interactive } nodes (fuel + 1) depth out node =
        out.pushAll toLowerCase (if node.ignored then []
          else if node.isWebArea toLowerCase ||
              (interactive && !node.isInteractive toLowerCase) then
            below.listed toLowerCase interactive depth
          else (depth, node) :: below.listed toLowerCase interactive (depth + 1)) := by
      rw [walk]
      simp only [Option.any_none, Bool.false_eq_true, if_false, hchildren]
      cases node.ignored
      · cases node.isWebArea toLowerCase
        · cases interactive && !node.isInteractive toLowerCase
          · exact ihbelow hbelow hlow (depth + 1) _
          · exact ihbelow hbelow hlow depth out
        · exact ihbelow hbelow hlow depth out
      · rfl
    rw [Forest.roots, foldl_cons, hnode, ihbeside hbeside hfuel.2, Forest.listed]
    unfold Output.pushAll
    rw [foldl_append]

theorem Forest.height_le (tree : Forest) : tree.height ≤ tree.preorder.length := by
  induction tree with
  | nil => exact Nat.le_refl 0
  | cons node below beside ihbelow ihbeside =>
    simp only [Forest.height, Forest.preorder, length_cons, length_append]
    omega

theorem Forest.Describes.mem (h : tree.Describes nodes) {n : AXNode}
    (hn : n ∈ tree.preorder) : n ∈ nodes := by
  induction tree with
  | nil => cases hn
  | cons node below beside ihbelow ihbeside =>
    obtain ⟨hnode, -, hbelow, hbeside⟩ := h
    rcases mem_cons.mp hn with rfl | hn
    · exact hnode
    · rcases mem_append.mp hn with hn | hn
      · exact ihbelow hbelow hn
      · exact ihbeside hbeside hn

theorem outputOf_eq (h : tree.Describes nodes) (hroot : tree.roots = nodes.take 1)
    (hids : (tree.preorder.map AXNode.nodeId).Nodup) (interactive : Bool) :
    outputOf toLowerCase { interactive } nodes =
      ({} : Output).pushAll toLowerCase (tree.listed toLowerCase interactive 0) := by
  have hlength : tree.preorder.length ≤ nodes.length :=
    (subperm_of_subset (Nodup.of_map _ hids) fun _ hn => h.mem hn).length_le
  rw [← foldl_walk h interactive (Nat.le_trans tree.height_le hlength) 0 {}, hroot]
  cases nodes with
  | nil => rfl
  | cons root rest => rfl

/-- Lines and references in step: the references are numbered from one, and stand on their lines. -/
structure InStep (toLowerCase : String → String) (out : Output) : Prop where
  numbered : out.refs.map Prod.fst = List.range' 1 out.refCounter
  mapped : out.refs = out.lines.filterMap fun line =>
    line.ref.map fun ref => (ref, line.node.refEntry toLowerCase)
  given : ∀ line ∈ out.lines, line.node.isInteractive toLowerCase = true → line.ref.isSome = true

theorem InStep.push {out : Output} (h : InStep toLowerCase out) (depth : Nat) (node : AXNode) :
    InStep toLowerCase (out.push toLowerCase depth node) := by
  unfold Output.push
  split_ifs with href
  · refine ⟨?_, ?_, fun line hline hinteractive => ?_⟩
    · rw [map_append, h.numbered, range'_concat, Nat.one_mul, Nat.add_comm 1]
      rfl
    · rw [filterMap_append, ← h.mapped]
      rfl
    · rcases mem_append.mp hline with hline | hline
      · exact h.given line hline hinteractive
      · rw [mem_singleton.mp hline]
        rfl
  · refine ⟨h.numbered, ?_, fun line hline hinteractive => ?_⟩
    · rw [filterMap_append, ← h.mapped]
      exact (append_nil _).symm
    · rcases mem_append.mp hline with hline | hline
      · exact h.given line hline hinteractive
      · rw [mem_singleton.mp hline] at hinteractive
        rw [hinteractive, Bool.true_or] at href
        exact absurd rfl href

theorem pushAll_spec {out : Output} (h : InStep toLowerCase out) (listing : List (Nat × AXNode)) :
    InStep toLowerCase (out.pushAll toLowerCase listing) ∧
      (out.pushAll toLowerCase listing).lines.map Line.node =
        out.lines.map Line.node ++ listing.map Prod.snd := by
  induction listing generalizing out with
  | nil => exact ⟨h, (append_nil _).symm⟩
  | cons line rest ih =>
    obtain ⟨hstep, hlines⟩ := ih (h.push line.1 line.2)
    refine ⟨hstep, hlines.trans ?_⟩
    unfold Output.push
    split_ifs <;> rw [map_append, append_assoc] <;> rfl

theorem Forest.listed_nodes (tree : Forest) (interactive : Bool) (depth : Nat) :
    (tree.listed toLowerCase interactive depth).map Prod.snd = tree.reached.filter fun n =>
      !(n.isWebArea toLowerCase || (interactive && !n.isInteractive toLowerCase)) := by
  induction tree generalizing depth with
  | nil => rfl
  | cons node below beside ihbelow ihbeside =>
    rw [Forest.listed, Forest.reached, map_append, filter_append, ihbeside]
    congr 1
    split_ifs with hignored hskipped
    · rfl
    · rw [filter_cons_of_neg (by simp [hskipped]), ihbelow]
    · rw [filter_cons_of_pos (by simp [Bool.eq_false_iff.mpr hskipped]), map_cons,
        ihbelow]

theorem Forest.reached_sublist (tree : Forest) : tree.reached.Sublist tree.preorder := by
  induction tree with
  | nil => exact Sublist.refl _
  | cons node below beside ihbelow ihbeside =>
    rw [Forest.reached, Forest.preorder, ← cons_append]
    refine Sublist.append ?_ ihbeside
    split_ifs
    · exact nil_sublist _
    · exact ihbelow.cons_cons node

theorem Forest.clear_iff (hnodup : tree.preorder.Nodup) :
    tree.Clear toLowerCase ↔ ∀ n ∈ tree.preorder, n.isInteractive toLowerCase = true →
      n.ignored = false → n ∈ tree.reached := by
  induction tree with
  | nil => exact iff_of_true trivial fun n hn => by cases hn
  | cons node below beside ihbelow ihbeside =>
    obtain ⟨hnode, hrest⟩ := nodup_cons.mp hnodup
    obtain ⟨hbelow, hbeside, hapart⟩ := nodup_append.mp hrest
    have hapart : ∀ n ∈ below.preorder, n ∉ beside.preorder := fun n hn hn' => hapart n hn n hn' rfl
    rw [Forest.Clear, ihbelow hbelow, ihbeside hbeside]
    constructor
    · rintro ⟨hclear, hlow, hside⟩ n hn hinteractive hshown
      rcases mem_cons.mp hn with rfl | hn
      · rw [Forest.reached, hshown]
        exact mem_cons_self
      · rcases mem_append.mp hn with hn | hn
        · rw [Forest.reached, if_neg fun h => Bool.false_ne_true
            (hshown.symm.trans (hclear h n hn hinteractive))]
          exact mem_append_left _ (mem_cons_of_mem _ (hlow n hn hinteractive hshown))
        · exact mem_append_right _ (hside n hn hinteractive hshown)
    · intro h
      have hcases : ∀ n ∈ below.preorder, n.isInteractive toLowerCase = true → n.ignored = false →
          node.ignored = false ∧ n ∈ below.reached := by
        intro n hn hinteractive hshown
        have hreached :=
          h n (mem_cons_of_mem _ (mem_append_left _ hn)) hinteractive hshown
        rcases mem_append.mp hreached with hreached | hreached
        · split_ifs at hreached with hignored
          · cases hreached
          · rcases mem_cons.mp hreached with rfl | hreached
            · exact absurd (mem_append_left _ hn) hnode
            · exact ⟨Bool.eq_false_iff.mpr hignored, hreached⟩
        · exact absurd (beside.reached_sublist.subset hreached) (hapart n hn)
      refine ⟨fun hignored n hn hinteractive => ?_, fun n hn hinteractive hshown =>
        (hcases n hn hinteractive hshown).2, fun n hn hinteractive hshown => ?_⟩
      · by_contra hshown
        have hfree := (hcases n hn hinteractive (Bool.eq_false_iff.mpr hshown)).1
        exact Bool.false_ne_true (hfree.symm.trans hignored)
      · have hreached :=
          h n (mem_cons_of_mem _ (mem_append_right _ hn)) hinteractive hshown
        rcases mem_append.mp hreached with hreached | hreached
        · split_ifs at hreached
          · cases hreached
          · rcases mem_cons.mp hreached with rfl | hreached
            · exact absurd (mem_append_right _ hn) hnode
            · exact absurd hn (hapart n (below.reached_sublist.subset hreached))
        · exact hreached

theorem outputOf_lines (h : tree.Describes nodes)
    (hroot : tree.roots = nodes.take 1) (hids : (tree.preorder.map AXNode.nodeId).Nodup)
    (interactive : Bool) :
    InStep toLowerCase (outputOf toLowerCase { interactive } nodes) ∧
      (outputOf toLowerCase { interactive } nodes).lines.map Line.node =
        tree.reached.filter fun n =>
          !(n.isWebArea toLowerCase || (interactive && !n.isInteractive toLowerCase)) := by
  have hempty : InStep toLowerCase {} := ⟨rfl, rfl, fun line hline => by cases hline⟩
  obtain ⟨hstep, hlines⟩ := pushAll_spec hempty (tree.listed toLowerCase interactive 0)
  rw [outputOf_eq h hroot hids interactive, hlines, tree.listed_nodes]
  exact ⟨hstep, rfl⟩

/-- A snapshot of a tree shows every control just where no ignored node stands above one. -/
theorem snapshotLaw_iff (tree : Forest) (h : tree.Describes nodes)
    (hroot : tree.roots = nodes.take 1) (hids : (tree.preorder.map AXNode.nodeId).Nodup) :
    SnapshotLaw toLowerCase nodes tree ↔ tree.Clear toLowerCase := by
  have hout := @outputOf_lines toLowerCase _ _ h hroot hids
  rw [Forest.clear_iff (Nodup.of_map _ hids)]
  constructor
  · intro hlaw n hn hinteractive hshown
    obtain ⟨line, hline, rfl, -⟩ := hlaw.complete false n hn hinteractive hshown
    have hmem : line ∈ (outputOf toLowerCase { interactive := false } nodes).lines :=
      (mem_filter.mp (hline ▸ mem_singleton_self line)).1
    have hnode := mem_map_of_mem (f := Line.node) hmem
    rw [(hout false).2] at hnode
    exact (mem_filter.mp hnode).1
  · intro hreached
    refine ⟨fun interactive n hn hinteractive hshown => ?_, fun interactive => ?_,
      fun interactive => (hout interactive).1.mapped, fun interactive => ?_, ?_⟩
    · have hnode : n ∈ (outputOf toLowerCase { interactive } nodes).lines.map Line.node := by
        rw [(hout interactive).2]
        refine mem_filter.mpr ⟨hreached n hn hinteractive hshown, ?_⟩
        rw [not_isWebArea hinteractive, hinteractive]
        simp
      obtain ⟨line, hline, rfl⟩ := mem_map.mp hnode
      refine ⟨line, ?_, rfl, (hout interactive).1.given line hline hinteractive⟩
      have hunique : ((outputOf toLowerCase { interactive } nodes).lines.map
          (AXNode.nodeId ∘ Line.node)).Nodup := by
        rw [← map_map, (hout interactive).2]
        exact hids.sublist ((filter_sublist.trans tree.reached_sublist).map _)
      obtain ⟨front, back, hsplit⟩ := append_of_mem hline
      rw [hsplit, map_append, map_cons, nodup_middle, nodup_cons, ← map_append] at hunique
      have hother : ∀ l ∈ front ++ back, ¬l.node.nodeId = line.node.nodeId :=
        fun l hl heq => hunique.1 (mem_map.mpr ⟨l, hl, heq⟩)
      rw [hsplit, filter_append, filter_cons_of_pos (by simp),
        filter_eq_nil_iff.mpr fun l hl => by simpa using hother l (mem_append_left _ hl),
        filter_eq_nil_iff.mpr fun l hl => by simpa using hother l (mem_append_right _ hl),
        nil_append]
    · rw [(hout interactive).1.numbered]
      exact nodup_range'
    · rw [(hout interactive).2]
      exact filter_sublist.trans tree.reached_sublist
    · rw [(hout true).2, (hout false).2, filter_filter]
      refine filter_congr fun n _ => ?_
      cases hinteractive : n.isInteractive toLowerCase
      · simp
      · rw [not_isWebArea hinteractive]
        rfl

/-- `toLowerCase` on the roles of `wrapped`. -/
def lowerRole (role : String) : String := if role = "RootWebArea" then "rootwebarea" else role

/-- A page with a button in a wrapper that is ignored. -/
def wrapped (ignored : Bool) : List AXNode :=
  [{ nodeId := "1", role := some "RootWebArea", childIds := some ["2"] },
    { nodeId := "2", ignored, role := some "generic", childIds := some ["3", "4"] },
    { nodeId := "3", role := some "button", name := some "Send" }]

/-- The tree of `wrapped`. -/
def wrappedTree (ignored : Bool) : Forest :=
  .cons { nodeId := "1", role := some "RootWebArea", childIds := some ["2"] }
    (.cons { nodeId := "2", ignored, role := some "generic", childIds := some ["3", "4"] }
      (.cons { nodeId := "3", role := some "button", name := some "Send" } .nil .nil) .nil) .nil

theorem wrappedTree_describes (ignored : Bool) :
    (wrappedTree ignored).Describes (wrapped ignored) := by
  cases ignored <;>
    exact ⟨by decide, by decide, ⟨by decide, by decide, ⟨by decide, by decide, trivial, trivial⟩,
      trivial⟩, trivial⟩

theorem snapshotLaw_wrapped :
    SnapshotLaw lowerRole (wrapped false) (wrappedTree false) ↔
      (wrappedTree false).Clear lowerRole :=
  snapshotLaw_iff (wrappedTree false) (wrappedTree_describes false) rfl (by decide)

/-- The button is not in the snapshot. -/
theorem wrapped_not_snapshotLaw : ¬SnapshotLaw lowerRole (wrapped true) (wrappedTree true) := by
  intro hlaw
  obtain ⟨line, hline, -⟩ := hlaw.complete false
    { nodeId := "3", role := some "button", name := some "Send" } (by decide) (by decide) rfl
  have hnone : (outputOf lowerRole { interactive := false } (wrapped true)).lines = [] := by decide
  rw [hnone] at hline
  cases hline

end CrabbyKit.Browser.Snapshot
