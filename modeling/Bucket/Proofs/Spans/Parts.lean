/-
# Parts of programs and their places

A part of a program is anything in its tree that has a place: a class, a method, a field, an argument, a
statement or an expression. Parts may lie in each other like brackets do (`Part.Nested`). That follows
where each of them has the place of tokens of its own, for tokens stand in order (`InOrder`), and a
stretch of them may be taken for one place (`InOrder.collapse`).
-/
import Bucket.Proofs.Lexing.Tiling
import Bucket.Tree.Basic

namespace Bucket

/-! ## Places in order -/

namespace Span

/-- Whether a place lies in another one. -/
def Within (s outer : Span) : Prop := outer.start ≤ s.start ∧ s.stop ≤ outer.stop

/-- Whether a place is over where another one begins, or before. -/
def Before (s t : Span) : Prop := s.stop ≤ t.start

/-- Whether a place goes from where the first of some tokens begins to where the last one ends. -/
def Covers (s : Span) (ts : List Token) : Prop :=
  ∃ t ∈ ts.head?, ∃ u ∈ ts.getLast?, s = ⟨t.span.start, u.span.stop⟩

/-- Two places of which one neither begins nor ends behind the other make up the stretch from the first
to the second. -/
theorem add_eq {s t : Span} (hstart : s.start ≤ t.start) (hstop : s.stop ≤ t.stop) :
    s + t = ⟨s.start, t.stop⟩ := by
  have hmin : min s.start t.start = s.start := if_pos hstart
  have hmax : max s.stop t.stop = t.stop := if_pos hstop
  rw [add_def, hmin, hmax]

end Span

/-- Whether places do not end before they begin, and stand behind each other. -/
structure InOrder (places : List Span) : Prop where
  start_le_stop : ∀ s ∈ places, s.start ≤ s.stop
  pairwise : places.Pairwise Span.Before

namespace InOrder

theorem append_iff {a b : List Span} :
    InOrder (a ++ b) ↔ InOrder a ∧ InOrder b ∧ ∀ s ∈ a, ∀ t ∈ b, s.Before t := by
  constructor
  · intro h
    obtain ⟨ha, hb, hab⟩ := List.pairwise_append.1 h.pairwise
    exact ⟨⟨fun s hs => h.start_le_stop s (List.mem_append_left b hs), ha⟩,
      ⟨fun s hs => h.start_le_stop s (List.mem_append_right a hs), hb⟩, hab⟩
  · rintro ⟨ha, hb, hab⟩
    refine ⟨fun s hs => ?_, List.pairwise_append.2 ⟨ha.pairwise, hb.pairwise, hab⟩⟩
    rcases List.mem_append.1 hs with hs | hs
    · exact ha.start_le_stop s hs
    · exact hb.start_le_stop s hs

theorem of_append_left {a b : List Span} (h : InOrder (a ++ b)) : InOrder a := (append_iff.1 h).1

theorem of_append_right {a b : List Span} (h : InOrder (a ++ b)) : InOrder b :=
  (append_iff.1 h).2.1

/-- Tokens that others stand behind are in order where all of them are. -/
theorem of_map_append_left {ts us : List Token} (h : InOrder ((ts ++ us).map (·.span))) :
    InOrder (ts.map (·.span)) := by
  rw [List.map_append] at h
  exact h.of_append_left

/-- The first of some places begins before all of them. -/
theorem head_le {s : Span} {places : List Span} (h : InOrder (s :: places)) :
    ∀ t ∈ s :: places, s.start ≤ t.start := by
  intro t ht
  rcases List.mem_cons.1 ht with rfl | ht
  · exact le_refl _
  · have hs := h.start_le_stop s List.mem_cons_self
    exact le_trans hs ((List.pairwise_cons.1 h.pairwise).1 t ht)

/-- The last of some places ends behind all of them. -/
theorem le_getLast {s : Span} {places : List Span} (h : InOrder (places ++ [s])) :
    ∀ t ∈ places ++ [s], t.stop ≤ s.stop := by
  intro t ht
  obtain ⟨-, hs, hbefore⟩ := append_iff.1 h
  rcases List.mem_append.1 ht with ht | ht
  · have hstop := hs.start_le_stop s (List.mem_singleton_self s)
    exact le_trans (hbefore t ht s (List.mem_singleton_self s)) hstop
  · rw [List.mem_singleton.1 ht]

end InOrder

namespace Span.Covers

variable {s : Span} {ts : List Token}

/-- The place of some tokens begins and ends where some of them do. -/
theorem exists_mem (h : s.Covers ts) :
    (∃ t ∈ ts, s.start = t.span.start) ∧ ∃ u ∈ ts, s.stop = u.span.stop := by
  obtain ⟨t, ht, u, hu, rfl⟩ := h
  exact ⟨⟨t, List.mem_of_head? ht, rfl⟩, ⟨u, List.mem_of_getLast? hu, rfl⟩⟩

/-- Tokens lie in their place. -/
theorem within (h : s.Covers ts) (hts : InOrder (ts.map (·.span))) : ∀ t ∈ ts, t.span.Within s := by
  obtain ⟨first, hfirst, last, hlast, rfl⟩ := h
  intro t ht
  have hmem : t.span ∈ ts.map (·.span) := List.mem_map_of_mem ht
  constructor
  · obtain ⟨rest, rfl⟩ := List.head?_eq_some_iff.1 hfirst
    exact hts.head_le _ hmem
  · obtain ⟨front, rfl⟩ := List.getLast?_eq_some_iff.1 hlast
    rw [List.map_append] at hts hmem
    exact hts.le_getLast _ hmem

theorem start_le_stop (h : s.Covers ts) (hts : InOrder (ts.map (·.span))) : s.start ≤ s.stop := by
  obtain ⟨⟨t, ht, hstart⟩, -⟩ := h.exists_mem
  have hle := hts.start_le_stop _ (List.mem_map_of_mem ht)
  exact hstart ▸ le_trans hle (h.within hts t ht).2

end Span.Covers

/-- Some tokens in a row may be taken for one place. -/
theorem InOrder.collapse {front back : List Span} {s : Span} {ts : List Token}
    (h : InOrder (front ++ (ts.map (·.span) ++ back))) (hs : s.Covers ts) :
    InOrder (front ++ s :: back) := by
  obtain ⟨hfront, hrest, hbefore⟩ := append_iff.1 h
  obtain ⟨hts, hback, hbehind⟩ := append_iff.1 hrest
  obtain ⟨⟨t, ht, hstart⟩, u, hu, hstop⟩ := hs.exists_mem
  have hsingle : InOrder [s] := by
    refine ⟨fun r hr => ?_, List.pairwise_singleton _ s⟩
    rw [List.mem_singleton.1 hr]
    exact hs.start_le_stop hts
  refine append_iff.2 ⟨hfront, append_iff.2 ⟨hsingle, hback, fun r hr b hb => ?_⟩, fun a ha b hb => ?_⟩
  · rw [List.mem_singleton.1 hr, Span.Before, hstop]
    exact hbehind _ (List.mem_map_of_mem hu) b hb
  · rcases List.mem_cons.1 hb with rfl | hb
    · rw [Span.Before, hstart]
      exact hbefore a ha _ (List.mem_append_left back (List.mem_map_of_mem ht))
    · exact hbefore a ha b (List.mem_append_right _ hb)

/-- The tokens of a source without faults are in order, and lie between its beginning and its end. -/
theorem Source.inOrder_tokens {s : Source} {e : Position} (h : s.tokens.stop = .ok e) :
    InOrder (s.tokens.tokens.map (·.span)) ∧
      ∀ t ∈ s.tokens.tokens, t.span.Within ⟨.first, s.endPosition⟩ := by
  have htiled : Tiled [] s.chars s.tokens.tokens := Cursor.tiled_tokens rfl h
  obtain ⟨hspans, hpairwise⟩ := htiled.ordered
  refine ⟨⟨fun place hplace => ?_, List.pairwise_map.2 hpairwise⟩,
    fun t ht => ⟨(hspans t ht).1, htiled.stop_le t ht⟩⟩
  obtain ⟨t, ht, rfl⟩ := List.mem_map.1 hplace
  exact (hspans t ht).2.le

/-! ## Parts -/

/-- Anything in the tree of a program that has a place. -/
inductive Part where
  | ofDeclaration (value : Declaration)
  | ofArgument (value : Argument)
  | ofStatement (value : Statement)
  | ofExpression (value : Expression)

namespace Part

/-- Where a part stands. -/
def span : Part → Span
  | ofDeclaration d => d.span
  | ofArgument a => a.span
  | ofStatement s => s.span
  | ofExpression e => e.span

/-- Further conditions and their bodies. -/
def ofAlternatives (alternatives : List (Expression × List Statement)) : List Part :=
  alternatives.flatMap fun a => ofExpression a.1 :: a.2.map ofStatement

/-- The parts that lie directly in a part, in the order of the tree: receivers before arguments, left
before right, the types of a method before its body, and conditions before what depends on them. -/
def children : Part → List Part
  | ofDeclaration (.classDef _ body _) => body.map ofDeclaration
  | ofDeclaration (.method m) =>
      m.arguments.map ofArgument ++ (m.returns.toList.map ofExpression ++ m.body.map ofStatement)
  | ofDeclaration (.field f) => [ofExpression f.type]
  | ofArgument a => [ofExpression a.type]
  | ofStatement (.conditional condition body alternatives otherwise _) =>
      ofExpression condition ::
        (body.map ofStatement ++ (ofAlternatives alternatives ++ otherwise.map ofStatement))
  | ofStatement (.loop body _) => body.map ofStatement
  | ofStatement (.leave _) => []
  | ofStatement (.cycle _) => []
  | ofStatement (.ret value _) => value.toList.map ofExpression
  | ofStatement (.expression value _) => [ofExpression value]
  | ofExpression (.identifier _ _) => []
  | ofExpression (.literal _ _) => []
  | ofExpression (.call receiver _ arguments _) =>
      ofExpression receiver :: arguments.map ofExpression
  | ofExpression (.assignment left right _) => [ofExpression left, ofExpression right]

/-- The parts of an expression are the same in another place. -/
@[simp] theorem children_withSpan (e : Expression) (s : Span) :
    (ofExpression (e.withSpan s)).children = (ofExpression e).children := by
  cases e <;> rfl

/-- Whether a part is another one or lies in it, at any depth. -/
inductive LiesIn : Part → Part → Prop where
  | self (p : Part) : LiesIn p p
  | child {p q outer : Part} : q ∈ outer.children → LiesIn p q → LiesIn p outer

theorem LiesIn.trans {p q r : Part} (h : p.LiesIn q) (h' : q.LiesIn r) : p.LiesIn r := by
  induction h' with
  | self => exact h
  | child hmem _ ih => exact .child hmem ih

/-- Whether a part, and all that lies in it, has a place that does not end before it begins and holds
the places of the parts directly in it, which stand behind each other. -/
inductive Nested : Part → Prop where
  | mk {p : Part} :
      p.span.start ≤ p.span.stop → (∀ q ∈ p.children, q.span.Within p.span) →
      p.children.Pairwise (fun q r => q.span.Before r.span) → (∀ q ∈ p.children, q.Nested) →
      Nested p

end Part

end Bucket
