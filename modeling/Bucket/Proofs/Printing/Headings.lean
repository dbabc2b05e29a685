/-
# The layout of printed text

Printed text has a line for each node of a tree that is no expression, and one for each further
condition, for when no condition holds and for the end of a block, in the order of the tree
(`Class.headings`). A line is indented by the blocks that stand open in front of it; further conditions and
ends are indented as the first line of their block is (`Source.layout_of_render`). Line by line, this is
told by `LaidOut`: the lines of each statement and each declaration leave the blocks around them as they
were (`Statement.laidOut`, `Declaration.laidOut`).
-/
import Bucket.Proofs.Printing.OneLine
import Bucket.Proofs.Printing.RoundTrip
import Bucket.Tree.Node

namespace Bucket

/-! ## Headings -/

/-- Whether a node has a line of its own: every node but an expression. -/
def Node.hasLine : Node → Bool
  | ofExpression _ => false
  | _ => true

/-- What stands on a printed line: the first line of a node, or a line inside or at the end of a block. -/
inductive Heading where
  | node (node : Node)
  | alternative (condition : Expression)
  | otherwise
  | close

namespace Heading

/-- The node whose first line this is, if there is one. -/
def node? : Heading → Option Node
  | node n => some n
  | _ => none

/-- Whether a block begins with this line: a class, a method, a conditional or a loop. -/
def opens : Heading → Bool
  | node (.ofClass _) | node (.ofMethod _) => true
  | node (.ofStatement (.conditional _ _ _ _ _)) | node (.ofStatement (.loop _ _)) => true
  | _ => false

/-- Whether this is the first line of a conditional. -/
def isConditional : Heading → Bool
  | node n => n.conditional?.isSome
  | _ => false

/-- Whether a conditional goes on with this line. -/
def continues : Heading → Bool
  | alternative _ | otherwise => true
  | _ => false

/-- Whether a block ends with this line. -/
def closes : Heading → Bool
  | close => true
  | _ => false

/-- The text of a line behind its indent. -/
def text : Heading → List Char
  | node (.ofClass c) => "class ".toList ++ c.name.toList
  | node (.ofMethod m) => textOf m.headerPieces
  | node (.ofField f) => textOf (typed f.name f.type)
  | node (.ofStatement (.conditional condition _ _ _ _)) =>
      "if ".toList ++ textOf condition.pieces
  | node (.ofStatement (.loop _ _)) => "do".toList
  | node (.ofStatement (.leave _)) => "break".toList
  | node (.ofStatement (.cycle _)) => "cycle".toList
  | node (.ofStatement (.ret none _)) => "ret".toList
  | node (.ofStatement (.ret (some value) _)) => "ret ".toList ++ textOf value.pieces
  | node (.ofStatement (.expression value _)) => textOf value.pieces
  | node (.ofExpression value) => textOf value.pieces
  | alternative condition => "elif ".toList ++ textOf condition.pieces
  | otherwise => "else".toList
  | close => "end".toList

/-- The blocks that stand open behind a line, from the inside out, by those in front of it. -/
def after (blocks : List Heading) (h : Heading) : List Heading :=
  if h.opens then h :: blocks else if h.closes then blocks.tail else blocks

/-- A block neither goes on nor ends with its first line. -/
theorem inner_of_opens {h : Heading} (hopens : h.opens = true) :
    (h.continues || h.closes) = false := by
  cases h with
  | node n => rfl
  | _ => cases hopens

/-- How deep a line stands where some blocks are open. -/
def depth (blocks : List Heading) (h : Heading) : Nat :=
  if h.continues || h.closes then blocks.length - 1 else blocks.length

end Heading

/-- The blocks that stand open behind some lines, from the inside out. -/
def openBlocks (hs : List Heading) : List Heading := hs.foldl Heading.after []

/-- How deep the line at an index stands. -/
def depthAt (hs : List Heading) (i : Nat) : Nat :=
  (hs[i]?.map (Heading.depth (openBlocks (hs.take i)))).getD 0

/-! ## Headings of a tree -/

mutual

/-- What stands on the lines of a statement. -/
def Statement.headings : Statement → List Heading
  | .conditional condition body alternatives otherwise span =>
      .node (.ofStatement (.conditional condition body alternatives otherwise span)) ::
        (headingsOfBlock body ++ headingsOfAlternatives alternatives ++
          headingsOfOtherwise otherwise ++ [.close])
  | .loop body span =>
      .node (.ofStatement (.loop body span)) :: (headingsOfBlock body ++ [.close])
  | .leave span => [.node (.ofStatement (.leave span))]
  | .cycle span => [.node (.ofStatement (.cycle span))]
  | .ret value span => [.node (.ofStatement (.ret value span))]
  | .expression value span => [.node (.ofStatement (.expression value span))]

/-- What stands on the lines of statements. -/
def headingsOfBlock : List Statement → List Heading
  | [] => []
  | s :: rest => s.headings ++ headingsOfBlock rest

/-- What stands on the lines of further conditions and their bodies. -/
def headingsOfAlternatives : List (Expression × List Statement) → List Heading
  | [] => []
  | (condition, body) :: rest =>
      .alternative condition :: (headingsOfBlock body ++ headingsOfAlternatives rest)

/-- What stands on the lines for when no condition holds. There are none for no statements. -/
def headingsOfOtherwise : List Statement → List Heading
  | [] => []
  | s :: rest => .otherwise :: (s.headings ++ headingsOfBlock rest)

end

mutual

/-- What stands on the lines of a declaration. -/
def Declaration.headings : Declaration → List Heading
  | .classDef name body span =>
      .node (.ofClass ⟨name, body, span⟩) :: (headingsOfDeclarations body ++ [.close])
  | .method m => .node (.ofMethod m) :: (headingsOfBlock m.body ++ [.close])
  | .field f => [.node (.ofField f)]

/-- What stands on the lines of declarations. -/
def headingsOfDeclarations : List Declaration → List Heading
  | [] => []
  | d :: rest => d.headings ++ headingsOfDeclarations rest

end

namespace Class

/-- What stands on the lines of a class that is printed. A module is its body alone. -/
def headings (c : Class) : List Heading :=
  if c.isModule then headingsOfDeclarations c.body else c.toDeclaration.headings

/-- The nodes of a class that is printed that have lines, in the order of the tree. -/
def linedNodes (c : Class) : List Node :=
  (if c.isModule then nodesOfDeclarations c.body else c.nodes).filter Node.hasLine

end Class

/-! ## Lines in blocks -/

/-- A line as it is printed, without its line feed. -/
def Line.shown (l : Line) : List Char := List.replicate (2 * l.depth) ' ' ++ textOf l.pieces

/-- Whether lines are laid out as they are printed: with the blocks that are open in front of them, from
the inside out, what stands on them, their text, and the blocks that are open behind them. -/
inductive LaidOut : List Heading → List Heading → List (List Char) → List Heading → Prop where
  | nil {blocks : List Heading} : LaidOut blocks [] [] blocks
  | plain {blocks after hs : List Heading} {h : Heading} {ls : List (List Char)} :
      h.opens = false → h.continues = false → h.closes = false → Solid h.text →
      LaidOut blocks hs ls after →
      LaidOut blocks (h :: hs) ((List.replicate (2 * blocks.length) ' ' ++ h.text) :: ls) after
  | opens {blocks after hs : List Heading} {h : Heading} {ls : List (List Char)} :
      h.opens = true → Solid h.text → LaidOut (h :: blocks) hs ls after →
      LaidOut blocks (h :: hs) ((List.replicate (2 * blocks.length) ' ' ++ h.text) :: ls) after
  | continues {opener h : Heading} {blocks after hs : List Heading} {ls : List (List Char)} :
      opener.isConditional = true → h.continues = true → Solid h.text →
      LaidOut (opener :: blocks) hs ls after →
      LaidOut (opener :: blocks) (h :: hs)
        ((List.replicate (2 * blocks.length) ' ' ++ h.text) :: ls) after
  | closes {opener : Heading} {blocks after hs : List Heading} {ls : List (List Char)} :
      LaidOut blocks hs ls after →
      LaidOut (opener :: blocks) (.close :: hs)
        ((List.replicate (2 * blocks.length) ' ' ++ "end".toList) :: ls) after

namespace LaidOut

variable {blocks between after hs ks : List Heading} {ls ms : List (List Char)}

/-- Lines are laid out behind other lines. -/
theorem append (hls : LaidOut blocks hs ls between) (hms : LaidOut between ks ms after) :
    LaidOut blocks (hs ++ ks) (ls ++ ms) after := by
  induction hls with
  | nil => exact hms
  | plain hopens hcontinues hcloses hsolid _ ih =>
      exact .plain hopens hcontinues hcloses hsolid (ih hms)
  | opens hopens hsolid _ ih => exact .opens hopens hsolid (ih hms)
  | continues hopener hcontinues hsolid _ ih => exact .continues hopener hcontinues hsolid (ih hms)
  | closes _ ih => exact .closes (ih hms)

/-- A line by itself. -/
theorem line {n : Node} {pieces : List Piece} (hopens : (Heading.node n).opens = false)
    (hsolid : Solid (textOf pieces)) (htext : (Heading.node n).text = textOf pieces) :
    LaidOut blocks [.node n] [Line.shown ⟨blocks.length, pieces⟩] blocks := by
  have hend : LaidOut blocks [] [] blocks := .nil
  have hnode := LaidOut.plain (h := .node n) hopens rfl rfl (htext ▸ hsolid) hend
  rwa [htext] at hnode

/-- A block: its first line, what stands in it, and its end. -/
theorem block {n : Node} (pieces : List Piece) (hopens : (Heading.node n).opens = true)
    (hsolid : Solid (textOf pieces)) (htext : (Heading.node n).text = textOf pieces)
    (hls : LaidOut (.node n :: blocks) hs ls (.node n :: blocks)) :
    LaidOut blocks (.node n :: (hs ++ [.close]))
      (Line.shown ⟨blocks.length, pieces⟩ :: (ls ++ [(Line.close blocks.length).shown])) blocks := by
  have hend : LaidOut (.node n :: blocks) [.close] [(Line.close blocks.length).shown] blocks :=
    .closes .nil
  have hnode := LaidOut.opens hopens (htext ▸ hsolid) (hls.append hend)
  rwa [htext] at hnode

end LaidOut

mutual

/-- The lines of a statement leave the blocks around it as they were. -/
theorem Statement.laidOut : ∀ (s : Statement) (blocks : List Heading),
    s.AllWords (·.isWritable = true) →
    LaidOut blocks s.headings ((s.lines blocks.length).map Line.shown) blocks
  | .conditional condition body alternatives otherwise span, blocks, hs => by
      obtain ⟨hcondition, hbody, halternatives, hotherwise⟩ := hs
      have hif : Lexer.isWord "if".toList = true := (Token.Kind.ofWord_keyword .ifKw).1
      have hopener : (Heading.node (.ofStatement
        (.conditional condition body alternatives otherwise span))).isConditional = true := rfl
      have hinside := ((laidOut_block body (.node _ :: blocks) hbody).append
        (laidOut_alternatives alternatives hopener blocks halternatives)).append
        (laidOut_otherwise otherwise hopener blocks hotherwise)
      have hblock := LaidOut.block (.keyword .ifKw :: .blank :: condition.pieces) rfl
        (Solid.word hif (condition.solid_text hcondition).oneLine) rfl hinside
      simpa [Statement.headings, Statement.lines] using hblock
  | .loop body span, blocks, hs => by
      have hinside := laidOut_block body (.node (.ofStatement (.loop body span)) :: blocks) hs
      have hblock := LaidOut.block [.keyword .doKw] rfl
        (Solid.of_isWord (Token.Kind.ofWord_keyword .doKw).1) rfl hinside
      simpa [Statement.headings, Statement.lines] using hblock
  | .leave _, _, _ =>
      .line rfl (Solid.of_isWord (Token.Kind.ofWord_keyword .breakKw).1) rfl
  | .cycle _, _, _ =>
      .line rfl (Solid.of_isWord (Token.Kind.ofWord_keyword .cycleKw).1) rfl
  | .ret none _, _, _ =>
      .line rfl (Solid.of_isWord (Token.Kind.ofWord_keyword .retKw).1) rfl
  | .ret (some value) _, _, hs =>
      .line rfl (Solid.word (Token.Kind.ofWord_keyword .retKw).1
        (value.solid_text (hs value rfl)).oneLine) rfl
  | .expression value _, _, hs => .line rfl (value.solid_text hs) rfl

theorem laidOut_block : ∀ (ss : List Statement) (blocks : List Heading),
    AllWordsOfBlock (·.isWritable = true) ss →
    LaidOut blocks (headingsOfBlock ss) ((linesOfBlock blocks.length ss).map Line.shown) blocks
  | [], _, _ => .nil
  | s :: rest, blocks, hss => by
      rw [headingsOfBlock, linesOfBlock, List.map_append]
      exact (s.laidOut blocks hss.1).append (laidOut_block rest blocks hss.2)

theorem laidOut_alternatives : ∀ (as : List (Expression × List Statement)) {opener : Heading},
    opener.isConditional = true → ∀ blocks : List Heading,
    AllWordsOfAlternatives (·.isWritable = true) as →
    LaidOut (opener :: blocks) (headingsOfAlternatives as)
      ((linesOfAlternatives blocks.length as).map Line.shown) (opener :: blocks)
  | [], _, _, _, _ => .nil
  | (condition, body) :: rest, opener, hopener, blocks, has => by
      obtain ⟨hcondition, hbody, hrest⟩ := has
      have helif : Lexer.isWord "elif".toList = true := (Token.Kind.ofWord_keyword .elifKw).1
      rw [headingsOfAlternatives, linesOfAlternatives, List.map_cons, List.map_append]
      exact .continues hopener rfl (Solid.word helif (condition.solid_text hcondition).oneLine)
        ((laidOut_block body (opener :: blocks) hbody).append
          (laidOut_alternatives rest hopener blocks hrest))

theorem laidOut_otherwise : ∀ (ss : List Statement) {opener : Heading},
    opener.isConditional = true → ∀ blocks : List Heading,
    AllWordsOfBlock (·.isWritable = true) ss →
    LaidOut (opener :: blocks) (headingsOfOtherwise ss)
      ((linesOfOtherwise blocks.length ss).map Line.shown) (opener :: blocks)
  | [], _, _, _, _ => .nil
  | s :: rest, opener, hopener, blocks, hss => by
      rw [headingsOfOtherwise, linesOfOtherwise, List.map_cons, List.map_append]
      exact .continues hopener rfl (Solid.of_isWord (Token.Kind.ofWord_keyword .elseKw).1)
        ((s.laidOut (opener :: blocks) hss.1).append (laidOut_block rest (opener :: blocks) hss.2))

end

mutual

/-- The lines of a declaration leave the blocks around it as they were. -/
theorem Declaration.laidOut : ∀ (d : Declaration) (blocks : List Heading),
    d.AllWords (·.isWritable = true) →
    LaidOut blocks d.headings ((d.lines blocks.length).map Line.shown) blocks
  | .classDef name body span, blocks, hd => by
      have hclass : Lexer.isWord "class".toList = true := (Token.Kind.ofWord_keyword .classKw).1
      have hinside := laidOut_declarations body (.node (.ofClass ⟨name, body, span⟩) :: blocks) hd.2
      have htext : textOf [.keyword .classKw, .blank, .name name] = "class ".toList ++ name.toList := by
        rw [textOf_cons, textOf_cons, textOf_cons, textOf_nil, List.append_nil]
        rfl
      have hsolid : Solid ("class ".toList ++ name.toList) :=
        Solid.word hclass (Token.Kind.solid_identifier hd.1).oneLine
      have hblock := LaidOut.block (n := .ofClass ⟨name, body, span⟩) _ rfl (htext ▸ hsolid)
        htext.symm hinside
      simpa [Declaration.headings, Declaration.lines] using hblock
  | .method m, blocks, hd => by
      have hinside := laidOut_block m.body (.node (.ofMethod m) :: blocks) hd.2.2.2
      have hblock := LaidOut.block _ rfl (Method.solid_header hd) rfl hinside
      simpa [Declaration.headings, Declaration.lines, Method.lines] using hblock
  | .field _, _, hd => .line rfl (solid_typed hd.1 hd.2) rfl

theorem laidOut_declarations : ∀ (ds : List Declaration) (blocks : List Heading),
    AllWordsOfDeclarations (·.isWritable = true) ds →
    LaidOut blocks (headingsOfDeclarations ds)
      ((linesOfDeclarations blocks.length ds).map Line.shown) blocks
  | [], _, _ => .nil
  | d :: rest, blocks, hds => by
      rw [headingsOfDeclarations, linesOfDeclarations, List.map_append]
      exact (d.laidOut blocks hds.1).append (laidOut_declarations rest blocks hds.2)

end

/-! ## Indents -/

namespace LaidOut

variable {blocks after hs : List Heading} {h : Heading} {ls : List (List Char)}

/-- What is known of the first line, and that the rest is laid out behind it. -/
theorem of_cons (hlaid : LaidOut blocks (h :: hs) ls after) :
    Solid h.text ∧
      ((h.continues || h.closes) = true → ∃ opener outer, blocks = opener :: outer ∧
        (h.continues = true → opener.isConditional = true)) ∧
      ∃ rest, ls = (List.replicate (2 * h.depth blocks) ' ' ++ h.text) :: rest ∧
        LaidOut (h.after blocks) hs rest after := by
  cases hlaid with
  | @plain _ _ _ _ rest hopens hcontinues hcloses hsolid hrest =>
      refine ⟨hsolid, by simp [hcontinues, hcloses], rest, ?_, ?_⟩
      · rw [Heading.depth, hcontinues, hcloses]
        rfl
      · rwa [Heading.after, hopens, hcloses]
  | @opens _ _ _ _ rest hopens hsolid hrest =>
      have hinner := Heading.inner_of_opens hopens
      refine ⟨hsolid, by simp [hinner], rest, ?_, ?_⟩
      · rw [Heading.depth, hinner]
        rfl
      · rwa [Heading.after, if_pos hopens]
  | @continues opener _ outer _ _ rest hopener hcontinues hsolid hrest =>
      have hother : h.opens = false ∧ h.closes = false := by
        cases h with
        | alternative condition => exact ⟨rfl, rfl⟩
        | otherwise => exact ⟨rfl, rfl⟩
        | _ => cases hcontinues
      refine ⟨hsolid, fun _ => ⟨opener, outer, rfl, fun _ => hopener⟩, rest, ?_, ?_⟩
      · rw [Heading.depth, hcontinues]
        rfl
      · rwa [Heading.after, hother.1, hother.2]
  | @closes opener outer _ _ _ hrest =>
      have hsolid : Solid "end".toList :=
        Solid.of_isWord (Token.Kind.ofWord_keyword .endKw).1
      exact ⟨hsolid, fun _ => ⟨opener, outer, rfl, fun hfalse => absurd hfalse (by decide)⟩, _, rfl,
        hrest⟩

/-- Each line is indented by the blocks that stand open in front of it. -/
theorem eq_mapIdx (hlaid : LaidOut blocks hs ls after) :
    ls = hs.mapIdx fun i h => List.replicate
      (2 * h.depth ((hs.take i).foldl Heading.after blocks)) ' ' ++ h.text := by
  induction hs generalizing blocks ls with
  | nil =>
      cases hlaid
      rfl
  | cons h hs ih =>
      obtain ⟨-, -, rest, rfl, hrest⟩ := hlaid.of_cons
      rw [List.mapIdx_cons, ih hrest]
      rfl

theorem solid_of_mem (hlaid : LaidOut blocks hs ls after) : ∀ h ∈ hs, Solid h.text := by
  induction hs generalizing blocks ls with
  | nil => simp
  | cons h hs ih =>
      obtain ⟨hsolid, -, rest, -, hrest⟩ := hlaid.of_cons
      exact List.forall_mem_cons.2 ⟨hsolid, ih hrest⟩

/-- A block is open in front of each line with which one goes on or ends. -/
theorem exists_open (hlaid : LaidOut blocks hs ls after) {i : Nat} (hi : hs[i]? = some h)
    (hinner : (h.continues || h.closes) = true) :
    ∃ opener outer, (hs.take i).foldl Heading.after blocks = opener :: outer ∧
      (h.continues = true → opener.isConditional = true) := by
  induction hs generalizing blocks ls i with
  | nil => cases hi
  | cons first hs ih =>
      obtain ⟨-, hopen, rest, -, hrest⟩ := hlaid.of_cons
      cases i with
      | zero =>
          obtain rfl := Option.some.inj hi
          exact hopen hinner
      | succ i => exact ih hrest hi

end LaidOut

theorem openBlocks_take_succ {hs : List Heading} {i : Nat} (hi : i < hs.length) :
    openBlocks (hs.take (i + 1)) = hs[i].after (openBlocks (hs.take i)) := by
  rw [openBlocks, List.take_succ_eq_append_getElem hi, List.foldl_append]
  rfl

/-- A block that is open behind a line begins there or was open in front of it. -/
theorem Heading.eq_or_suffix_of_after {h opener : Heading} {blocks outer : List Heading}
    (hopen : opener :: outer <:+ h.after blocks) :
    (h = opener ∧ opener.opens = true ∧ blocks = outer) ∨ opener :: outer <:+ blocks := by
  unfold after at hopen
  split at hopen
  · rename_i hopens
    rcases List.suffix_cons_iff.1 hopen with heq | hsuffix
    · obtain ⟨rfl, rfl⟩ := List.cons.inj heq
      exact .inl ⟨rfl, hopens, rfl⟩
    · exact .inr hsuffix
  · split at hopen
    · exact .inr (hopen.trans (List.tail_suffix blocks))
    · exact .inr hopen

/-- A block that is open in front of a line began on a line above, and has been open since. -/
theorem exists_opener {hs : List Heading} {opener : Heading} {outer : List Heading} {i : Nat}
    (hi : i ≤ hs.length) (hopen : opener :: outer <:+ openBlocks (hs.take i)) :
    ∃ j < i, hs[j]? = some opener ∧ opener.opens = true ∧ openBlocks (hs.take j) = outer ∧
      ∀ k, j < k → k ≤ i → opener :: outer <:+ openBlocks (hs.take k) := by
  induction i with
  | zero => simp [openBlocks] at hopen
  | succ i ih =>
      have hafter := hopen
      rw [openBlocks_take_succ hi] at hafter
      rcases Heading.eq_or_suffix_of_after hafter with ⟨rfl, hopens, houter⟩ | hbefore
      · refine ⟨i, by omega, List.getElem?_eq_getElem hi, hopens, houter, fun k hk hki => ?_⟩
        obtain rfl : k = i + 1 := by omega
        exact hopen
      · obtain ⟨j, hj, hopener, hopens, houter, hsince⟩ := ih (by omega) hbefore
        refine ⟨j, by omega, hopener, hopens, houter, fun k hk hki => ?_⟩
        by_cases hlast : k = i + 1
        · exact hlast ▸ hopen
        · exact hsince k hk (by omega)

theorem depthAt_eq {hs : List Heading} {h : Heading} {i : Nat} (hi : hs[i]? = some h) :
    depthAt hs i = h.depth (openBlocks (hs.take i)) := by
  rw [depthAt, hi]
  rfl

/-- A line with which a block goes on or ends stands as deep as the first line of that block. That is the
next line above that stands no deeper, but for other lines with which the block goes on. -/
theorem LaidOut.exists_first {hs after : List Heading} {h : Heading} {ls : List (List Char)} {i : Nat}
    (hlaid : LaidOut [] hs ls after) (hi : hs[i]? = some h)
    (hinner : (h.continues || h.closes) = true) :
    ∃ j < i, ∃ opener, hs[j]? = some opener ∧ opener.opens = true ∧
      (h.continues = true → opener.isConditional = true) ∧ depthAt hs j = depthAt hs i ∧
      ∀ k, j < k → k < i → depthAt hs j < depthAt hs k ∨
        depthAt hs j = depthAt hs k ∧ ∃ between, hs[k]? = some between ∧ between.continues = true := by
  obtain ⟨opener, outer, hopen, hconditional⟩ := hlaid.exists_open hi hinner
  have hlt : i < hs.length := (List.getElem?_eq_some_iff.1 hi).1
  have hopen : openBlocks (hs.take i) = opener :: outer := hopen
  have hsuffix : opener :: outer <:+ openBlocks (hs.take i) := hopen ▸ List.suffix_refl _
  obtain ⟨j, hj, hopener, hopens, houter, hsince⟩ := exists_opener hlt.le hsuffix
  have hfirst : depthAt hs j = outer.length := by
    rw [depthAt_eq hopener, houter, Heading.depth, Heading.inner_of_opens hopens]
    rfl
  refine ⟨j, hj, opener, hopener, hopens, hconditional, ?_, fun k hk hki => ?_⟩
  · rw [hfirst, depthAt_eq hi, hopen, Heading.depth, if_pos hinner]
    rfl
  · have hk' : k < hs.length := by omega
    have hbetween : hs[k]? = some hs[k] := List.getElem?_eq_getElem hk'
    have hlength := (hsince k hk (by omega)).length_le
    have hbehind := (hsince (k + 1) (by omega) (by omega)).length_le
    rw [openBlocks_take_succ hk'] at hbehind
    rw [hfirst, depthAt_eq hbetween]
    rw [List.length_cons] at hlength hbehind
    -- A line that ends a block ends one inside this block.
    unfold Heading.depth
    cases hcontinues : hs[k].continues with
    | true =>
        simp only [Bool.true_or, if_true]
        by_cases heq : outer.length = (openBlocks (hs.take k)).length - 1
        · exact .inr ⟨heq, hs[k], hbetween, hcontinues⟩
        · exact .inl (by omega)
    | false =>
        refine .inl ?_
        cases hcloses : hs[k].closes with
        | false => exact hlength
        | true =>
            have hnot : hs[k].opens = false := by
              by_contra hopens
              have := Heading.inner_of_opens (Bool.not_eq_false _ ▸ hopens)
              simp [hcloses] at this
            rw [Heading.after, hnot, hcloses] at hbehind
            simp only [Bool.false_eq_true, if_false, if_true, List.length_tail] at hbehind
            simp only [Bool.or_true, if_true]
            omega

/-! ## Nodes -/

mutual

theorem Expression.filter_nodes : ∀ e : Expression, e.nodes.filter Node.hasLine = []
  | .identifier _ _ => rfl
  | .literal _ _ => rfl
  | .call receiver _ arguments _ => by
      rw [Expression.nodes, List.filter_cons_of_neg Bool.false_ne_true, List.filter_append,
        Expression.filter_nodes receiver, filter_nodesOfExpressions arguments, List.append_nil]
  | .assignment left right _ => by
      rw [Expression.nodes, List.filter_cons_of_neg Bool.false_ne_true, List.filter_append,
        Expression.filter_nodes left, Expression.filter_nodes right, List.append_nil]

/-- No expression has a line of its own. -/
theorem filter_nodesOfExpressions : ∀ es : List Expression,
    (nodesOfExpressions es).filter Node.hasLine = []
  | [] => rfl
  | e :: rest => by
      rw [nodesOfExpressions, List.filter_append, Expression.filter_nodes e,
        filter_nodesOfExpressions rest, List.append_nil]

end

/-- The end of a block begins no node. -/
theorem filterMap_block (n : Node) (hs : List Heading) :
    (.node n :: (hs ++ [.close])).filterMap Heading.node? = n :: hs.filterMap Heading.node? := by
  have hfirst : (Heading.node n).node? = some n := rfl
  have hend : [Heading.close].filterMap Heading.node? = [] := rfl
  rw [List.filterMap_cons_some hfirst, List.filterMap_append, hend, List.append_nil]

mutual

/-- The lines of a statement begin its nodes, in their order. -/
theorem Statement.filterMap_headings : ∀ s : Statement,
    s.headings.filterMap Heading.node? = s.nodes.filter Node.hasLine
  | .conditional condition body alternatives otherwise _ => by
      rw [Statement.headings, Statement.nodes, filterMap_block, List.filter_cons_of_pos rfl]
      simp only [List.filterMap_append, List.filter_append, condition.filter_nodes, List.nil_append,
        filterMap_headingsOfBlock body, filterMap_headingsOfAlternatives alternatives,
        filterMap_headingsOfOtherwise otherwise]
  | .loop body _ => by
      rw [Statement.headings, Statement.nodes, filterMap_block, List.filter_cons_of_pos rfl,
        filterMap_headingsOfBlock body]
  | .leave _ => rfl
  | .cycle _ => rfl
  | .ret none _ => rfl
  | .ret (some value) span => congrArg (Node.ofStatement (.ret (some value) span) :: ·)
      value.filter_nodes.symm
  | .expression value span => congrArg (Node.ofStatement (.expression value span) :: ·)
      value.filter_nodes.symm

theorem filterMap_headingsOfBlock : ∀ ss : List Statement,
    (headingsOfBlock ss).filterMap Heading.node? = (nodesOfBlock ss).filter Node.hasLine
  | [] => rfl
  | s :: rest => by
      rw [headingsOfBlock, nodesOfBlock, List.filterMap_append, List.filter_append,
        s.filterMap_headings, filterMap_headingsOfBlock rest]

theorem filterMap_headingsOfAlternatives : ∀ as : List (Expression × List Statement),
    (headingsOfAlternatives as).filterMap Heading.node? =
      (nodesOfAlternatives as).filter Node.hasLine
  | [] => rfl
  | (condition, body) :: rest => by
      rw [headingsOfAlternatives, nodesOfAlternatives, List.filterMap_cons_none rfl,
        List.filterMap_append, List.filter_append, List.filter_append, condition.filter_nodes,
        filterMap_headingsOfBlock body, filterMap_headingsOfAlternatives rest, List.nil_append]

theorem filterMap_headingsOfOtherwise : ∀ ss : List Statement,
    (headingsOfOtherwise ss).filterMap Heading.node? = (nodesOfBlock ss).filter Node.hasLine
  | [] => rfl
  | s :: rest => by
      rw [headingsOfOtherwise, nodesOfBlock, List.filterMap_cons_none rfl, List.filterMap_append,
        List.filter_append, s.filterMap_headings, filterMap_headingsOfBlock rest]

end

mutual

/-- The lines of a declaration begin its nodes, in their order. -/
theorem Declaration.filterMap_headings : ∀ d : Declaration,
    d.headings.filterMap Heading.node? = d.nodes.filter Node.hasLine
  | .classDef name body span => by
      rw [Declaration.headings, Declaration.nodes, filterMap_block, List.filter_cons_of_pos rfl,
        filterMap_headingsOfDeclarations body]
  | .method m => by
      rw [Declaration.headings, Declaration.nodes, Method.nodes, filterMap_block,
        List.filter_cons_of_pos rfl, List.filter_append, List.filter_append,
        filter_nodesOfExpressions, filter_nodesOfExpressions, List.nil_append,
        filterMap_headingsOfBlock m.body, List.nil_append]
  | .field f => congrArg (Node.ofField f :: ·) f.type.filter_nodes.symm

theorem filterMap_headingsOfDeclarations : ∀ ds : List Declaration,
    (headingsOfDeclarations ds).filterMap Heading.node? =
      (nodesOfDeclarations ds).filter Node.hasLine
  | [] => rfl
  | d :: rest => by
      rw [headingsOfDeclarations, nodesOfDeclarations, List.filterMap_append, List.filter_append,
        d.filterMap_headings, filterMap_headingsOfDeclarations rest]

end

/-! ## Printed text -/

/-- The lines of a class that is printed are laid out, and leave no block open. -/
theorem Class.laidOut {c : Class} (hc : c.toDeclaration.AllWords (·.isWritable = true)) :
    LaidOut [] c.headings (c.lines.map Line.shown) [] := by
  rw [headings, lines]
  split
  · exact laidOut_declarations c.body [] hc.2
  · exact c.toDeclaration.laidOut [] hc

theorem Class.filterMap_headings (c : Class) : c.headings.filterMap Heading.node? = c.linedNodes := by
  rw [headings, linedNodes]
  split
  · exact filterMap_headingsOfDeclarations c.body
  · exact c.toDeclaration.filterMap_headings

/-- How a class in a tree that was read is printed. Its document, laid out, is its text, and the text has
one line for each heading, ended by a line feed, with two blanks for each level that the line is deep. On a
line stands the text of its heading, which neither holds a line feed nor begins with a blank. The headings
begin the nodes of the tree that are no expressions, in their order. A line is as deep as there are open
blocks in front of it. One that goes on with a block or ends it is as deep as the first line of that block:
the next line above that is not deeper, but for other lines that go on with the block. -/
theorem Source.layout_of_render {s : Source} {m c : Class} {path : List Nat}
    (hparse : s.parse = .ok m) (hc : m.nested? path = some c) :
    c.document.layout 0 = c.render.toList ∧
    c.render.toList.splitOn '\n' = (c.headings.mapIdx fun i h =>
      List.replicate (2 * depthAt c.headings i) ' ' ++ h.text) ++ [[]] ∧
    (∀ h ∈ c.headings, '\n' ∉ h.text ∧ ∃ first rest, h.text = first :: rest ∧ first ≠ ' ') ∧
    c.headings.filterMap Heading.node? = c.linedNodes ∧
    ∀ (i : Nat) (h : Heading), c.headings[i]? = some h → (h.continues || h.closes) = true →
      ∃ j < i, ∃ opener, c.headings[j]? = some opener ∧ opener.opens = true ∧
        (h.continues = true → opener.isConditional = true) ∧
        depthAt c.headings j = depthAt c.headings i ∧
        ∀ k, j < k → k < i → depthAt c.headings j < depthAt c.headings k ∨
          depthAt c.headings j = depthAt c.headings k ∧
            ∃ between, c.headings[k]? = some between ∧ between.continues = true := by
  have hlaid := Class.laidOut (Source.allWords_nested? hparse hc)
  have hsolid := hlaid.solid_of_mem
  have hshown : c.lines.map Line.shown = c.headings.mapIdx fun i h =>
      List.replicate (2 * depthAt c.headings i) ' ' ++ h.text := by
    rw [hlaid.eq_mapIdx]
    apply List.mapIdx_eq_mapIdx_iff.2
    intro i hi
    rw [depthAt_eq (List.getElem?_eq_getElem hi)]
    rfl
  have honeLine : ∀ l ∈ c.lines.map Line.shown, '\n' ∉ l := by
    rw [hshown]
    intro l hl
    obtain ⟨i, hi, rfl⟩ := List.mem_mapIdx.1 hl
    have htext := (hsolid _ (List.getElem_mem hi)).oneLine
    simpa [List.mem_append, List.mem_replicate] using htext
  have hlines : c.render.toList = (c.lines.map Line.shown).flatMap (· ++ ['\n']) := by
    rw [Class.render, String.toList_ofList, List.flatMap_map]
    rfl
  refine ⟨c.layout_document, ?_, fun h hh => ⟨(hsolid h hh).oneLine, (hsolid h hh).begins⟩,
    c.filterMap_headings, fun i h hi hinner => hlaid.exists_first hi hinner⟩
  rw [hlines, Text.splitOn_lines honeLine, hshown]

/-- A class with blocks in blocks and a string of two lines, inside a program. Its sixth line, with which
a conditional goes on, is as deep as the first line of the conditional, the third. -/
theorem Source.layout_of_render_nested :
    let text := "y: d\nclass c\nmethod m(x: d): d\nif x\ndo\nend\nelif \"a\\nb\"\nret\nend\nend\nend\n"
    let printed := "class c\n  method m(x: d): d\n    if x\n      do\n      end\n    elif \"a\\nb\"\n" ++
      "      ret\n    end\n  end\nend\n"
    ∃ m c, (ofText "in" text).parse = .ok m ∧ m.nested? [1] = some c ∧ c.render = printed ∧
      c.render.toList.splitOn '\n' = (c.headings.mapIdx fun i h =>
        List.replicate (2 * depthAt c.headings i) ' ' ++ h.text) ++ [[]] ∧
      ∃ j < 5, depthAt c.headings j = depthAt c.headings 5 ∧ depthAt c.headings 5 = 2 := by
  intro text printed
  have hclass : ((ofText "in" text).parse.toOption.bind (·.nested? [1])).map (fun c => (c.render,
      c.headings[5]?.any Heading.continues, depthAt c.headings 5)) = some (printed, true, 2) := by
    decide +kernel
  obtain ⟨c, hc, hvalues⟩ := Option.map_eq_some_iff.1 hclass
  obtain ⟨m, hm, hc⟩ := Option.bind_eq_some_iff.1 hc
  obtain ⟨hrender, hline⟩ := Prod.mk.inj hvalues
  obtain ⟨hcontinues, hdepth⟩ := Prod.mk.inj hline
  obtain ⟨h, hsixth, hcontinues⟩ := (Option.any_eq_true _ _).1 hcontinues
  have hparse := eq_ok_of_toOption hm
  obtain ⟨-, hlines, -, -, hinner⟩ := layout_of_render hparse hc
  obtain ⟨j, hj, -, -, -, -, hfirst, -⟩ := hinner 5 h hsixth (by rw [hcontinues, Bool.true_or])
  exact ⟨m, c, hparse, hc, hrender, hlines, j, hj, hfirst, hdepth⟩

end Bucket
