/-
# What a command line selects

A command line is accepted exactly when its arguments are the option for one mode with a path, in an
argument of its own or behind an equals sign (`Options.ofArguments_eq_ok_iff`). Then this option alone
was given, and it is what is selected. Every other command line is refused, all with one message
(`Options.one_mode`).
-/
import Bucket.Command.Run

namespace Bucket.Command

open Bucket.Module (exists_of_bind_ok)

/-! ## Arguments -/

/-- The option for a mode as it is written. -/
def Mode.flag : Mode → String
  | .read => "--read"
  | .lex => "--lex"
  | .parse => "--parse"
  | .compile => "--compile"

/-- It is the name of the option behind two dashes. -/
theorem Mode.flag_eq (m : Mode) : m.flag = "--" ++ m.option := by
  cases m <;> decide

/-- Whether an argument is the option for a mode, alone or with a path behind an equals sign. -/
def Mode.IsGivenBy (m : Mode) (argument : String) : Prop :=
  argument = m.flag ∨ ∃ path, argument = m.flag ++ "=" ++ path

/-- Whether an argument is the option for some mode. -/
def IsModeOption (argument : String) : Prop := ∃ m : Mode, m.IsGivenBy argument

/-- Whether an argument is an option. Neither one dash is, nor two. -/
def IsOption (argument : String) : Prop :=
  argument.toList.head? = some '-' ∧ argument ≠ "-" ∧ argument ≠ "--"

instance (argument : String) : Decidable (IsOption argument) :=
  inferInstanceAs (Decidable (_ ∧ _ ∧ _))

/-- Whether an argument is an option that is for no mode, known or not. -/
def IsOtherOption (argument : String) : Prop := IsOption argument ∧ ¬ IsModeOption argument

/-- Whether an argument can be the value of the option in front of it. -/
def IsValue (argument : String) : Prop := argument = "-" ∨ argument.toList.head? ≠ some '-'

instance (argument : String) : Decidable (IsValue argument) :=
  inferInstanceAs (Decidable (_ ∨ _))

/-- Whether there is a positional argument, which stands behind two dashes or is not the value of an
option in front of it. -/
def HasPositional (arguments : List String) : Prop :=
  ∃ front argument back, arguments = front ++ argument :: back ∧
    ("--" ∈ front ∨ IsValue argument ∧ ∀ m : Mode, front.getLast? ≠ some m.flag)

namespace Form

variable {a name path : String}

theorem eq_of_ofChars_escape (h : ofChars a.toList = .escape) : a = "--" := by
  unfold ofChars at h
  split at h
  case h_1 htext => exact String.toList_inj.1 htext
  all_goals cases h

/-- A value has the form of no option. -/
theorem ofChars_of_isValue (h : IsValue a) : ofChars a.toList = .plain := by
  rcases h with rfl | h
  · rfl
  · unfold ofChars
    split
    case h_4 => rfl
    all_goals
      rename_i htext
      exact absurd (congrArg List.head? htext) h

theorem isValue_of_ofChars_plain (h : ofChars a.toList = .plain) : IsValue a := by
  by_cases hhead : a.toList.head? = some '-'
  · obtain ⟨rest, htext⟩ := List.head?_eq_some_iff.1 hhead
    cases rest with
    | nil => exact .inl (String.toList_inj.1 htext)
    | cons c rest =>
        rw [htext] at h
        unfold ofChars at h
        split at h
        case h_4 _ hshort => exact absurd rfl (hshort c rest)
        all_goals cases h
  · exact .inr hhead

/-- A long option as it is written: its name behind two dashes, and then its value behind an equals
sign if it has one. -/
def longText (name : String) : Option String → String
  | none => "--" ++ name
  | some path => "--" ++ name ++ "=" ++ path

theorem eq_of_ofChars_long {value : Option String} (h : ofChars a.toList = .long name value) :
    a = longText name value := by
  unfold ofChars at h
  split at h
  case h_2 text _ htext =>
    have hparts := List.takeWhile_append_dropWhile (p := (· != '=')) (l := text)
    obtain ⟨rfl, rfl⟩ := Form.long.inj h
    cases hrest : text.dropWhile (· != '=') with
    | nil =>
        rw [hrest, List.append_nil] at hparts
        refine String.toList_inj.1 ?_
        simp [longText, htext, hparts]
    | cons c rest =>
        have hequals := List.head?_dropWhile_not (· != '=') text
        rw [hrest] at hparts hequals
        obtain rfl : c = '=' := by simpa using hequals
        refine String.toList_inj.1 ?_
        simp [longText, htext, hparts]
  all_goals cases h

theorem ofChars_flag (m : Mode) : ofChars m.flag.toList = .long m.option none := by
  cases m <;> simp [Mode.flag, Mode.option, ofChars]

theorem ofChars_flag_append (m : Mode) (path : String) :
    ofChars (m.flag ++ "=" ++ path).toList = .long m.option (some path) := by
  cases m <;> simp [Mode.flag, Mode.option, ofChars]

/-- The option for a mode has the form of a long one. -/
theorem exists_ofChars_of_isGivenBy {m : Mode} (h : m.IsGivenBy a) :
    ∃ value, ofChars a.toList = .long m.option value := by
  rcases h with rfl | ⟨path, rfl⟩
  · exact ⟨none, ofChars_flag m⟩
  · exact ⟨some path, ofChars_flag_append m path⟩

end Form

variable {a : String}

theorem not_isModeOption_of_isValue (h : IsValue a) : ¬ IsModeOption a := by
  rintro ⟨m, hm⟩
  obtain ⟨value, hlong⟩ := Form.exists_ofChars_of_isGivenBy hm
  cases hlong.symm.trans (Form.ofChars_of_isValue h)

theorem not_isModeOption_dashes : ¬ IsModeOption "--" := by
  rintro ⟨m, hm⟩
  obtain ⟨value, hlong⟩ := Form.exists_ofChars_of_isGivenBy hm
  have hescape : Form.ofChars "--".toList = .escape := rfl
  cases hlong.symm.trans hescape

theorem not_isOption_of_isValue (h : IsValue a) : ¬ IsOption a := by
  rintro ⟨hhead, hdash, -⟩
  exact h.elim hdash fun hvalue => hvalue hhead

theorem not_isValue_dashes : ¬ IsValue "--" := by
  rintro (h | h)
  · exact absurd h (by decide)
  · exact h rfl

/-- A request for help or for the version is an option for no mode. -/
theorem isOtherOption_of_request (h : a = "--help" ∨ a = "--version") : IsOtherOption a := by
  refine ⟨by rcases h with rfl | rfl <;> decide, ?_⟩
  rintro ⟨m, hm⟩
  obtain ⟨value, hlong⟩ := Form.exists_ofChars_of_isGivenBy hm
  rcases h with rfl | rfl <;> cases m <;> simp [Form.ofChars, Mode.option] at hlong

/-! ## Selections as they are written -/

/-- Whether arguments are the option for a mode with a path that is not empty. The path is a value
behind the option, or any text in the same argument. -/
def Selection.IsWritten (s : Selection) (given : List String) : Prop :=
  s.path ≠ "" ∧ (given = [s.mode.flag, s.path] ∧ IsValue s.path ∨
    given = [s.mode.flag ++ "=" ++ s.path])

/-- Whether arguments are selections, one after the other. -/
inductive AreWritten : List Selection → List String → Prop
  | nil : AreWritten [] []
  | append {chosen front s given} : AreWritten chosen front → Selection.IsWritten s given →
      AreWritten (chosen ++ [s]) (front ++ given)

theorem AreWritten.eq_nil {arguments : List String} (h : AreWritten [] arguments) :
    arguments = [] := by
  generalize hchosen : ([] : List Selection) = chosen at h
  cases h with
  | nil => rfl
  | append => simp at hchosen

theorem AreWritten.isWritten {s : Selection} {arguments : List String}
    (h : AreWritten [s] arguments) : s.IsWritten arguments := by
  generalize hchosen : [s] = chosen at h
  cases h with
  | nil => cases hchosen
  | @append before front s' given hfront hgiven =>
      obtain ⟨rfl, rfl⟩ : before = [] ∧ s' = s := by
        cases before <;> simp_all
      rwa [hfront.eq_nil]

/-! ## Readings -/

namespace Reading

/-- Whether a reading stands behind some arguments: those are the selections that were made, and then
the option that is pending, perhaps with its value. -/
inductive IsBehind : Reading → List String → Prop
  | complete {chosen front} : AreWritten chosen front → IsBehind ⟨chosen, none⟩ front
  | named {chosen front} (m : Mode) : AreWritten chosen front →
      IsBehind ⟨chosen, some (m, none)⟩ (front ++ [m.flag])
  | valued {chosen front path} (m : Mode) : AreWritten chosen front → IsValue path →
      IsBehind ⟨chosen, some (m, some path)⟩ (front ++ [m.flag, path])

variable {r r' : Reading} {m : Mode} {path name argument : String} {chosen : List Selection}
  {front : List String}

theorem eq_of_choose (h : choose m path chosen = .ok r) :
    path ≠ "" ∧ r = ⟨chosen ++ [⟨m, path⟩], none⟩ := by
  unfold choose at h
  split at h
  · cases h
  · split at h
    · cases h
    · rename_i hpath
      exact ⟨by simpa using hpath, (Except.ok.inj h).symm⟩

/-- Nothing is pending any more once a reading is settled. -/
theorem IsBehind.settle (h : r.IsBehind front) (hsettle : r.settle = .ok r') :
    AreWritten r'.chosen front ∧ r'.pending = none := by
  cases h with
  | complete hchosen =>
      obtain rfl := Except.ok.inj hsettle
      exact ⟨hchosen, rfl⟩
  | named m hchosen => cases hsettle
  | valued m hchosen hvalue =>
      obtain ⟨hpath, rfl⟩ := eq_of_choose hsettle
      exact ⟨hchosen.append ⟨hpath, .inl ⟨rfl, hvalue⟩⟩, rfl⟩

theorem IsBehind.long {value : Option String} (h : r.IsBehind front)
    (hform : Form.ofChars argument.toList = .long name value) (hlong : r.long name value = .ok r') :
    r'.IsBehind (front ++ [argument]) := by
  have hargument := Form.eq_of_ofChars_long hform
  unfold Reading.long at hlong
  split at hlong
  case h_1 m hm =>
    obtain rfl := Mode.option_of_ofOption? hm
    obtain ⟨⟨chosen, pending⟩, hsettle, hlong⟩ := exists_of_bind_ok hlong
    obtain ⟨hchosen, rfl⟩ := h.settle hsettle
    cases value with
    | none =>
        obtain rfl := Except.ok.inj hlong
        obtain rfl : argument = m.flag := hargument.trans m.flag_eq.symm
        exact .named m hchosen
    | some path =>
        obtain rfl : argument = m.flag ++ "=" ++ path := by
          rw [m.flag_eq]
          exact hargument
        obtain ⟨hpath, rfl⟩ := eq_of_choose hlong
        exact .complete (hchosen.append ⟨hpath, .inr rfl⟩)
  case h_2 =>
    -- Whatever is settled, a request selects nothing.
    split at hlong
    · cases value with
      | some path => cases hlong
      | none =>
          obtain ⟨_, -, hlong⟩ := exists_of_bind_ok hlong
          cases hlong
    · cases hlong

/-- Short options select nothing. -/
theorem short_ne_ok (r r' : Reading) (letter : Char) : r.short letter ≠ .ok r' := by
  intro h
  unfold short at h
  split at h
  · obtain ⟨_, -, h⟩ := exists_of_bind_ok h
    cases h
  · split at h
    · obtain ⟨_, -, h⟩ := exists_of_bind_ok h
      cases h
    · cases h

theorem IsBehind.plain (h : r.IsBehind front) (hvalue : IsValue argument)
    (hplain : r.plain argument = .ok r') : r'.IsBehind (front ++ [argument]) := by
  cases h with
  | complete hchosen => cases hplain
  | named m hchosen =>
      obtain rfl := Except.ok.inj hplain
      rw [List.append_assoc]
      exact .valued m hchosen hvalue
  | valued m hchosen => cases hplain

/-- Reading arguments leads behind them. Two dashes at the end are passed over. -/
theorem IsBehind.readAll {arguments : List String} (h : r.IsBehind front)
    (hread : r.readAll arguments = .ok r') :
    ∃ given, (arguments = given ∨ arguments = given ++ ["--"]) ∧ r'.IsBehind (front ++ given) := by
  induction arguments generalizing r front with
  | nil =>
      obtain rfl := Except.ok.inj hread
      exact ⟨[], .inl rfl, by rwa [List.append_nil]⟩
  | cons argument rest ih =>
      have hstep : ∀ {next : Reading}, next.IsBehind (front ++ [argument]) →
          next.readAll rest = .ok r' → ∃ given,
            (argument :: rest = given ∨ argument :: rest = given ++ ["--"]) ∧
            r'.IsBehind (front ++ given) := by
        intro next hnext hrest
        obtain ⟨given, hgiven, hbehind⟩ := ih hnext hrest
        rw [List.append_assoc] at hbehind
        exact ⟨argument :: given, hgiven.imp (congrArg _) (congrArg _), hbehind⟩
      unfold Reading.readAll at hread
      split at hread
      case h_1 hform =>
        obtain rfl := Form.eq_of_ofChars_escape hform
        split at hread
        case isTrue hrest =>
          obtain rfl := Except.ok.inj hread
          obtain rfl := List.isEmpty_iff.1 hrest
          exact ⟨[], .inr rfl, by rwa [List.append_nil]⟩
        case isFalse => cases hread
      case h_2 name value hform =>
        obtain ⟨next, hlong, hrest⟩ := exists_of_bind_ok hread
        exact hstep (h.long hform hlong) hrest
      case h_3 letter hform =>
        obtain ⟨next, hshort, -⟩ := exists_of_bind_ok hread
        exact absurd hshort (short_ne_ok r next letter)
      case h_4 hform =>
        obtain ⟨next, hplain, hrest⟩ := exists_of_bind_ok hread
        exact hstep (h.plain (Form.isValue_of_ofChars_plain hform) hplain) hrest

/-- A written selection is read, so that settling the reading makes the selection. -/
theorem exists_readAll_of_isWritten {s : Selection} {given : List String} (h : s.IsWritten given) :
    ∃ r : Reading, r.settle = .ok ⟨[s], none⟩ ∧
      ∀ rest, empty.readAll (given ++ rest) = r.readAll rest := by
  obtain ⟨m, path⟩ := s
  obtain ⟨hpath, ⟨rfl, hvalue⟩ | rfl⟩ := h
  · refine ⟨⟨[], some (m, some path)⟩, ?_, fun rest => ?_⟩
    · simp [settle, choose, hpath]
    · have hlong : empty.long m.option none = .ok ⟨[], some (m, none)⟩ := by
        rw [long, Mode.ofOption?_option]
        rfl
      simp only [List.cons_append, List.nil_append, readAll, Form.ofChars_flag,
        Form.ofChars_of_isValue hvalue, hlong]
      rfl
  · refine ⟨⟨[⟨m, path⟩], none⟩, rfl, fun rest => ?_⟩
    have hlong : empty.long m.option (some path) = .ok ⟨[⟨m, path⟩], none⟩ := by
      rw [long, Mode.ofOption?_option]
      simp [settle, choose, hpath, empty, bind, Except.bind]
    simp only [List.cons_append, List.nil_append, readAll, Form.ofChars_flag_append, hlong]
    rfl

end Reading

/-! ## Command lines -/

/-- Whether arguments select something: they are the selection as it is written, and perhaps two dashes
behind it. -/
def Selection.IsSelectedBy (s : Selection) (arguments : List String) : Prop :=
  ∃ given, s.IsWritten given ∧ (arguments = given ∨ arguments = given ++ ["--"])

namespace Options

@[simp] theorem path?_ofSelections (s : Selection) (m : Mode) :
    (ofSelections [s]).path? m = if m = s.mode then some s.path else none := by
  obtain ⟨n, path⟩ := s
  cases m <;> cases n <;> rfl

@[simp] theorem selection?_ofSelections (s : Selection) :
    (ofSelections [s]).selection? = some s := by
  obtain ⟨m, path⟩ := s
  cases m <;> rfl

variable {arguments line : List String} {o : Options}

/-- Arguments are accepted when they select something, and only then. The options are those of the
selection. -/
theorem ofArguments_eq_ok_iff :
    ofArguments arguments = .ok o ↔
      ∃ s : Selection, s.IsSelectedBy arguments ∧ o = ofSelections [s] := by
  constructor
  · intro h
    obtain ⟨r, hread, h⟩ := exists_of_bind_ok h
    obtain ⟨r', hsettle, h⟩ := exists_of_bind_ok h
    obtain ⟨given, hgiven, hbehind⟩ := Reading.IsBehind.readAll (.complete .nil) hread
    obtain ⟨hchosen, -⟩ := hbehind.settle hsettle
    split at h
    case h_1 => cases h
    case h_2 s hs =>
      rw [hs] at hchosen h
      exact ⟨s, ⟨given, hchosen.isWritten, hgiven⟩, (Except.ok.inj h).symm⟩
    case h_3 => cases h
  · rintro ⟨s, ⟨given, hwritten, hgiven⟩, rfl⟩
    obtain ⟨r, hsettle, hread⟩ := Reading.exists_readAll_of_isWritten hwritten
    have hall : Reading.empty.readAll arguments = .ok r := by
      rcases hgiven with rfl | rfl
      · have hnothing := hread []
        rwa [List.append_nil] at hnothing
      · rw [hread]
        rfl
    simp only [ofArguments, hall, bind, Except.bind, hsettle]

theorem ofLine_eq_ok_iff :
    ofLine line = .ok o ↔ ∃ s : Selection, s.IsSelectedBy line.tail ∧ o = ofSelections [s] := by
  rw [← ofArguments_eq_ok_iff, ofLine]
  cases ofArguments line.tail with
  | error r => exact ⟨fun h => (by cases h), fun h => (by cases h)⟩
  | ok o' =>
      constructor
      · intro h
        exact congrArg Except.ok (Except.ok.inj h)
      · intro h
        exact congrArg Except.ok (Except.ok.inj h)

/-- A selection that is written behind the name of the program is accepted. -/
theorem exists_ofLine_of_isWritten {s : Selection} (h : s.IsWritten line.tail) :
    ∃ o, ofLine line = .ok o ∧ o.selection? = some s :=
  ⟨_, ofLine_eq_ok_iff.2 ⟨s, ⟨_, h, .inl rfl⟩, rfl⟩, selection?_ofSelections s⟩

/-- A command line that selects nothing is refused with one message. -/
theorem ofLine_eq_error (h : ∀ s : Selection, ¬ s.IsSelectedBy line.tail) :
    ofLine line = .error Rejection.message := by
  rw [ofLine]
  cases hoptions : ofArguments line.tail with
  | error r => rfl
  | ok o =>
      obtain ⟨s, hs, -⟩ := ofArguments_eq_ok_iff.1 hoptions
      exact absurd hs (h s)

end Options

namespace Selection

variable {s : Selection} {arguments given : List String}

/-- A written selection begins with the option for its mode. What may follow is its value. -/
theorem IsWritten.exists_cons (h : s.IsWritten given) :
    ∃ first values, given = first :: values ∧ IsModeOption first ∧ ∀ a ∈ values, IsValue a := by
  obtain ⟨-, ⟨rfl, hvalue⟩ | rfl⟩ := h
  · exact ⟨_, _, rfl, ⟨s.mode, .inl rfl⟩, List.forall_mem_singleton.2 hvalue⟩
  · exact ⟨_, _, rfl, ⟨s.mode, .inr ⟨s.path, rfl⟩⟩, by simp⟩

theorem IsWritten.dashes_notMem (h : s.IsWritten given) : "--" ∉ given := by
  obtain ⟨first, values, rfl, hfirst, hvalues⟩ := h.exists_cons
  intro hdashes
  rcases List.mem_cons.1 hdashes with rfl | hdashes
  · exact not_isModeOption_dashes hfirst
  · exact not_isValue_dashes (hvalues _ hdashes)

/-- A value in a written selection stands behind the option for its mode. -/
theorem IsWritten.getLast?_front {front back : List String} (h : s.IsWritten given)
    (hsplit : given = front ++ a :: back) (ha : IsValue a) : front.getLast? = some s.mode.flag := by
  cases front with
  | nil =>
      obtain ⟨first, values, rfl, hfirst, -⟩ := h.exists_cons
      obtain ⟨rfl, -⟩ := List.cons.inj hsplit
      exact absurd hfirst (not_isModeOption_of_isValue ha)
  | cons first front =>
      obtain ⟨-, ⟨rfl, -⟩ | rfl⟩ := h
      · obtain ⟨rfl, hrest⟩ := List.cons.inj hsplit
        rcases List.singleton_eq_append_iff.1 hrest with ⟨rfl, -⟩ | ⟨-, hnil⟩
        · rfl
        · cases hnil
      · simp at hsplit

/-- What selects something begins with the option for a mode. Values may follow, and two dashes. -/
theorem IsSelectedBy.exists_cons (h : s.IsSelectedBy arguments) :
    ∃ first others, arguments = first :: others ∧ IsModeOption first ∧
      ∀ a ∈ others, IsValue a ∨ a = "--" := by
  obtain ⟨given, hgiven, harguments⟩ := h
  obtain ⟨first, values, rfl, hfirst, hvalues⟩ := hgiven.exists_cons
  rcases harguments with rfl | rfl
  · exact ⟨first, values, rfl, hfirst, fun a ha => .inl (hvalues a ha)⟩
  · refine ⟨first, values ++ ["--"], rfl, hfirst, fun a ha => ?_⟩
    exact (List.mem_append.1 ha).imp (hvalues a) List.mem_singleton.1

/-- What selects something has no other option for a mode. -/
theorem IsSelectedBy.not_two {b : String} (h : s.IsSelectedBy arguments)
    (hsub : [a, b].Sublist arguments) : ¬ IsModeOption b := by
  obtain ⟨first, others, rfl, -, hothers⟩ := h.exists_cons
  have hb : b ∈ others := List.singleton_sublist.1 hsub.tail
  rcases hothers b hb with hvalue | rfl
  · exact not_isModeOption_of_isValue hvalue
  · exact not_isModeOption_dashes

/-- What selects something has no option that is for no mode. -/
theorem IsSelectedBy.not_isOtherOption (h : s.IsSelectedBy arguments) (ha : a ∈ arguments) :
    ¬ IsOtherOption a := by
  rintro ⟨hoption, hother⟩
  obtain ⟨first, others, rfl, hfirst, hothers⟩ := h.exists_cons
  rcases List.mem_cons.1 ha with rfl | ha
  · exact hother hfirst
  · rcases hothers a ha with hvalue | rfl
    · exact not_isOption_of_isValue hvalue hoption
    · exact hoption.2.2 rfl

theorem IsSelectedBy.not_hasPositional (h : s.IsSelectedBy arguments) :
    ¬ HasPositional arguments := by
  rintro ⟨front, a, back, hsplit, hpositional⟩
  obtain ⟨given, hgiven, harguments⟩ := h
  -- In the written selection itself there is no positional argument.
  have hinside : ∀ back, given ≠ front ++ a :: back := by
    intro back hgiven'
    rcases hpositional with hdashes | ⟨hvalue, hbehind⟩
    · exact hgiven.dashes_notMem (hgiven' ▸ List.mem_append_left _ hdashes)
    · exact hbehind s.mode (hgiven.getLast?_front hgiven' hvalue)
  rcases harguments with rfl | rfl
  · exact hinside back hsplit
  · rcases List.eq_nil_or_concat back with rfl | ⟨back, last, rfl⟩
    · obtain ⟨rfl, hlast⟩ := List.append_inj' hsplit rfl
      obtain rfl := List.singleton_inj.1 hlast
      exact hpositional.elim hgiven.dashes_notMem fun h => not_isValue_dashes h.1
    · rw [List.concat_eq_append, ← List.cons_append, ← List.append_assoc] at hsplit
      exact hinside back (List.append_inj' hsplit rfl).1

end Selection

/-! ## One mode -/

namespace Options

/-- A command line, which begins with the name of the program, has the option for one mode or is
refused. When it is accepted, that option has a path that is not empty, no other one was given, and the
mode is selected with the path. So there is no accepted command line that selects nothing. The option
for a mode is accepted with any path behind an equals sign, and with one in the next argument that is a
dash or does not begin with one. With two options for modes, a request for help or for the version, an
unknown option or a positional argument, wherever they stand, a command line is refused. -/
theorem one_mode (line : List String) :
    (∀ o, ofLine line = .ok o →
      ∃ m path, path ≠ "" ∧ (∀ m', o.path? m' = if m' = m then some path else none) ∧
        o.selection? = some ⟨m, path⟩ ∧ selectFrom line = .ok ⟨m, path⟩) ∧
    (∀ program m path, path ≠ "" → IsValue path →
      ∃ o, ofLine [program, m.flag, path] = .ok o ∧ o.selection? = some ⟨m, path⟩) ∧
    (∀ program m path, path ≠ "" →
      ∃ o, ofLine [program, m.flag ++ "=" ++ path] = .ok o ∧ o.selection? = some ⟨m, path⟩) ∧
    ((∃ a b, [a, b].Sublist line.tail ∧ IsModeOption a ∧ IsModeOption b) ∨
      (∃ a ∈ line.tail, a = "--help" ∨ a = "--version" ∨ IsOtherOption a) ∨
      HasPositional line.tail →
      ofLine line = .error "bad command line arguments") := by
  refine ⟨fun o ho => ?_, fun program m path hpath hvalue => ?_, fun program m path hpath => ?_,
    fun h => ?_⟩
  · obtain ⟨s, ⟨given, hwritten, -⟩, rfl⟩ := ofLine_eq_ok_iff.1 ho
    refine ⟨s.mode, s.path, hwritten.1, path?_ofSelections s, selection?_ofSelections s, ?_⟩
    simp only [selectFrom, ho, bind, Except.bind, selection?_ofSelections]
  · exact exists_ofLine_of_isWritten ⟨hpath, .inl ⟨rfl, hvalue⟩⟩
  · exact exists_ofLine_of_isWritten ⟨hpath, .inr rfl⟩
  · refine ofLine_eq_error fun s hs => ?_
    rcases h with ⟨a, b, hsub, -, hb⟩ | ⟨a, ha, hrequest⟩ | hpositional
    · exact hs.not_two hsub hb
    · have hother : IsOtherOption a := by
        rcases hrequest with h | h | h
        · exact isOtherOption_of_request (.inl h)
        · exact isOtherOption_of_request (.inr h)
        · exact h
      exact hs.not_isOtherOption ha hother
    · exact hs.not_hasPositional hpositional

/-- Each mode has its own option. A path may look like a request behind an equals sign. A mode that is
given in both spellings is refused, and so is a request behind a mode, an option that is not known, or a
path behind another one. -/
theorem one_mode_spellings :
    (ofLine ["bucket", "--read", "a"] = .ok ⟨some "a", none, none, none⟩ ∧
      selectFrom ["bucket", "--read", "a"] = .ok ⟨.read, "a"⟩) ∧
    (ofLine ["bucket", "--lex=--help"] = .ok ⟨none, some "--help", none, none⟩ ∧
      selectFrom ["bucket", "--lex=--help"] = .ok ⟨.lex, "--help"⟩) ∧
    (ofLine ["bucket", "--parse", "-"] = .ok ⟨none, none, some "-", none⟩ ∧
      selectFrom ["bucket", "--parse", "-"] = .ok ⟨.parse, "-"⟩) ∧
    (ofLine ["bucket", "--compile=a=b"] = .ok ⟨none, none, none, some "a=b"⟩ ∧
      selectFrom ["bucket", "--compile=a=b"] = .ok ⟨.compile, "a=b"⟩) ∧
    ofLine ["bucket", "--lex", "a", "--lex=b"] = .error "bad command line arguments" ∧
    ofLine ["bucket", "--lex", "a", "--help"] = .error "bad command line arguments" ∧
    ofLine ["bucket", "--lexer=a"] = .error "bad command line arguments" ∧
    ofLine ["bucket", "--lex=a", "b"] = .error "bad command line arguments" := by
  obtain ⟨-, happart, hwith, -⟩ := one_mode []
  have hexact : ∀ {line : List String} {s : Selection},
      (∃ o, ofLine line = .ok o ∧ o.selection? = some s) →
        ofLine line = .ok (ofSelections [s]) ∧ selectFrom line = .ok s := by
    rintro line s ⟨o, ho, hs⟩
    obtain ⟨m, path, -, -, hmode, hselect⟩ := (one_mode line).1 o ho
    obtain rfl : s = ⟨m, path⟩ := Option.some.inj (hs.symm.trans hmode)
    obtain ⟨s', -, rfl⟩ := ofLine_eq_ok_iff.1 ho
    obtain rfl : s' = ⟨m, path⟩ := Option.some.inj ((selection?_ofSelections s').symm.trans hs)
    exact ⟨ho, hselect⟩
  have hlex : IsModeOption "--lex" := ⟨.lex, .inl rfl⟩
  have hjoined : IsModeOption "--lex=b" := ⟨.lex, .inr ⟨"b", rfl⟩⟩
  have hother : IsOtherOption "--lexer=a" := by
    refine ⟨by decide, ?_⟩
    rintro ⟨m, hm⟩
    obtain ⟨value, hlong⟩ := Form.exists_ofChars_of_isGivenBy hm
    cases m <;> simp [Form.ofChars, Mode.option] at hlong
  have hpositional : HasPositional ["--lex=a", "b"] :=
    ⟨["--lex=a"], "b", [], rfl, .inr ⟨by decide, fun m => by cases m <;> decide⟩⟩
  refine ⟨hexact (happart "bucket" .read "a" (by decide) (by decide)),
    hexact (hwith "bucket" .lex "--help" (by decide)),
    hexact (happart "bucket" .parse "-" (by decide) (by decide)),
    hexact (hwith "bucket" .compile "a=b" (by decide)),
    (one_mode _).2.2.2 ?_, (one_mode _).2.2.2 ?_, (one_mode _).2.2.2 ?_, (one_mode _).2.2.2 ?_⟩
  · exact .inl ⟨_, _, by decide, hlex, hjoined⟩
  · exact .inr (.inl ⟨"--help", by decide, .inl rfl⟩)
  · exact .inr (.inl ⟨_, List.mem_singleton_self _, .inr (.inr hother)⟩)
  · exact .inr (.inr hpositional)

end Options

end Bucket.Command
