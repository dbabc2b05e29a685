/-
# Paths in a directory

A path of names is followed from entry to entry, and two dots lead back
(`Command.Entry.Leads.follow_back`). It ends at the file that it leads to, or with the fault of the first
step that leads nowhere (`Command.Entry.read_eq_iff`). What is put at a path is found there, and what
stands apart from the path stays where it is (`Command.Entry.leads_insert`,
`Command.Entry.leads_insert_iff`). So what the program leaves in a directory depends on the file that it
finds there (`Command.Entry.result_of_read`) and not on what stands apart from the file
(`Command.Entry.result_insert_of_apart`), and the program does not succeed without a file
(`Command.Entry.exists_read_of_result`).
-/
import Bucket.Command.Directory
import Mathlib.Data.List.Infix

namespace Bucket.Command.Entry

/-! ## Entries -/

/-- The entries of a directory. A file has none. -/
def entries : Entry → List (String × Entry)
  | file _ => []
  | directory entries => entries

theorem lookup_cons_ite (name other : String) (e : Entry) (rest : List (String × Entry)) :
    ((name, e) :: rest).lookup other = if other = name then some e else rest.lookup other := by
  by_cases h : other = name
  · rw [h, List.lookup_cons_self, if_pos rfl]
  · rw [List.lookup_cons, beq_false_of_ne h, if_neg h]

/-- What was put there is found by its name, and all else as before. -/
theorem lookup_put (name other : String) (e : Entry) (entries : List (String × Entry)) :
    (put name e entries).lookup other = if other = name then some e else entries.lookup other := by
  induction entries with
  | nil => exact lookup_cons_ite name other e []
  | cons entry rest ih =>
      obtain ⟨old, inner⟩ := entry
      by_cases hold : old = name
      · rw [put, if_pos hold, lookup_cons_ite, lookup_cons_ite, hold]
        split <;> rfl
      · rw [put, if_neg hold, lookup_cons_ite, lookup_cons_ite, ih]
        by_cases h : other = name
        · rw [if_neg fun hother => hold (hother.symm.trans h), if_pos h, if_pos h]
        · rw [if_neg h, if_neg h]

/-- The first step to where something is put. What is missing on the way, or is a file, becomes a
directory. -/
theorem insert_cons (e d : Entry) (name : String) (rest : List String) :
    insert e (name :: rest) d =
      directory (put name (insert e rest ((d.entries.lookup name).getD empty)) d.entries) := by
  cases d with
  | file bytes => rfl
  | directory entries => rfl

/-! ## Where steps lead -/

/-- Whether steps lead from an entry to another one inside it. -/
inductive Leads : Entry → List String → Entry → Prop
  | here (e : Entry) : Leads e [] e
  | step {entries name inner rest e} : entries.lookup name = some inner → Leads inner rest e →
      Leads (directory entries) (name :: rest) e

/-- How it ends when steps are followed: at a file, at a directory, behind a file, or at a name that a
directory does not have. -/
inductive Ends (d : Entry) (steps : List String) : Except PathFault ByteArray → Prop
  | atFile {bytes} : Leads d steps (file bytes) → Ends d steps (.ok bytes)
  | atDirectory {entries} : Leads d steps (directory entries) → Ends d steps (.error .isDirectory)
  | behindFile {front name back bytes} : steps = front ++ name :: back → Leads d front (file bytes) →
      Ends d steps (.error .notDirectory)
  | missing {front name back entries} : steps = front ++ name :: back →
      Leads d front (directory entries) → entries.lookup name = none → Ends d steps (.error .noEntry)

variable {d e inner : Entry} {name : String} {front steps other : List String} {bytes : ByteArray}

theorem leads_nil_iff : Leads d [] e ↔ d = e := by
  constructor
  · rintro ⟨⟩
    rfl
  · rintro rfl
    exact .here d

theorem leads_cons_iff :
    Leads d (name :: steps) e ↔ ∃ inner, d.entries.lookup name = some inner ∧ Leads inner steps e := by
  constructor
  · rintro (_ | ⟨hlookup, hinner⟩)
    exact ⟨_, hlookup, hinner⟩
  · rintro ⟨inner, hlookup, hinner⟩
    cases d with
    | file bytes => cases hlookup
    | directory entries => exact .step hlookup hinner

/-- What was put there is found by the same steps. -/
theorem leads_insert (e : Entry) (steps : List String) (d : Entry) : Leads (insert e steps d) steps e := by
  induction steps generalizing d with
  | nil => exact .here e
  | cons name rest ih =>
      rw [insert_cons]
      exact .step (by rw [lookup_put, if_pos rfl]) (ih _)

/-- Whether two paths part before either of them ends. -/
def Apart (steps other : List String) : Prop := ¬ steps <+: other ∧ ¬ other <+: steps

/-- Steps that part from those to where something is put lead where they led before. -/
theorem leads_insert_iff (happart : Apart steps other) :
    Leads (insert e steps d) other inner ↔ Leads d other inner := by
  induction steps generalizing d other with
  | nil => exact absurd List.nil_prefix happart.1
  | cons name rest ih =>
      cases other with
      | nil => exact absurd List.nil_prefix happart.2
      | cons first others =>
          rw [insert_cons, leads_cons_iff, leads_cons_iff, entries, lookup_put]
          by_cases hfirst : first = name
          · subst hfirst
            have happart : Apart rest others :=
              ⟨fun h => happart.1 (List.cons_prefix_cons.2 ⟨rfl, h⟩),
                fun h => happart.2 (List.cons_prefix_cons.2 ⟨rfl, h⟩)⟩
            rw [if_pos rfl]
            cases hlookup : d.entries.lookup first with
            | some next => simp [ih happart]
            | none =>
                -- A directory that is made on the way has one entry, and the other path passes it by.
                cases others with
                | nil => exact absurd List.nil_prefix happart.2
                | cons second others =>
                    simp only [Option.some.injEq, exists_eq_left', Option.getD_none, ih happart]
                    simp [leads_cons_iff, empty, entries]
          · rw [if_neg hfirst]

/-! ## Following steps -/

/-- Whether a step is a name. The empty step stays in a directory, and so does one dot. Two dots lead
back. -/
def IsName (step : String) : Prop := step ≠ "" ∧ step ≠ "." ∧ step ≠ ".."

theorem follow_of_lookup {entries : List (String × Entry)} (hname : IsName name)
    (hlookup : entries.lookup name = some inner) (around : List Entry) (steps : List String) :
    follow around (directory entries) (name :: steps) =
      follow (directory entries :: around) inner steps := by
  obtain ⟨hempty, hdot, hdots⟩ := hname
  simp [follow, hempty, hdot, hdots, hlookup]

theorem follow_of_lookup_eq_none {entries : List (String × Entry)} (hname : IsName name)
    (hlookup : entries.lookup name = none) (around : List Entry) (steps : List String) :
    follow around (directory entries) (name :: steps) = .error .noEntry := by
  obtain ⟨hempty, hdot, hdots⟩ := hname
  simp [follow, hempty, hdot, hdots, hlookup]

/-- Where names lead, the rest is followed. -/
theorem Leads.exists_follow (h : Leads d front inner) (hfront : ∀ s ∈ front, IsName s)
    (around : List Entry) (back : List String) :
    ∃ around', follow around d (front ++ back) = follow around' inner back := by
  induction h generalizing around with
  | here => exact ⟨around, rfl⟩
  | step hlookup _ ih =>
      obtain ⟨hname, hrest⟩ := List.forall_mem_cons.1 hfront
      obtain ⟨around', ih⟩ := ih hrest (_ :: around)
      refine ⟨around', ?_⟩
      rw [List.cons_append, follow_of_lookup hname hlookup, ih]

/-- As many dots lead back as there were names. -/
theorem Leads.follow_back {entries : List (String × Entry)} (h : Leads d front (directory entries))
    (hfront : ∀ s ∈ front, IsName s) (around : List Entry) (back : List String) :
    follow around d (front ++ (List.replicate front.length ".." ++ back)) = follow around d back := by
  induction front generalizing d around back with
  | nil => rfl
  | cons name rest ih =>
      obtain ⟨hname, hrest⟩ := List.forall_mem_cons.1 hfront
      cases h with
      | @step outer _ inner _ _ hlookup hinner =>
          have hback := ih hinner hrest (directory outer :: around) (".." :: back)
          rw [List.cons_append, follow_of_lookup hname hlookup, List.length_cons,
            List.replicate_succ', List.append_assoc, List.singleton_append]
          refine hback.trans ?_
          obtain ⟨others, rfl⟩ : ∃ others, inner = directory others := by
            cases inner with
            | directory others => exact ⟨others, rfl⟩
            | file bytes => cases hinner
          simp [follow]

/-- One step earlier the end is the same. -/
theorem Ends.cons {entries : List (String × Entry)} {res : Except PathFault ByteArray}
    (hlookup : entries.lookup name = some inner) (h : Ends inner steps res) :
    Ends (directory entries) (name :: steps) res := by
  cases h with
  | atFile h => exact .atFile (.step hlookup h)
  | atDirectory h => exact .atDirectory (.step hlookup h)
  | behindFile hsteps h => exact .behindFile (congrArg (name :: ·) hsteps) (.step hlookup h)
  | missing hsteps h hnone => exact .missing (congrArg (name :: ·) hsteps) (.step hlookup h) hnone

theorem ends_follow (hsteps : ∀ s ∈ steps, IsName s) (around : List Entry) :
    Ends d steps (follow around d steps) := by
  induction steps generalizing d around with
  | nil =>
      cases d with
      | file bytes => exact .atFile (.here _)
      | directory entries => exact .atDirectory (.here _)
  | cons name rest ih =>
      obtain ⟨hname, hrest⟩ := List.forall_mem_cons.1 hsteps
      cases d with
      | file bytes => exact .behindFile (List.nil_append _).symm (.here _)
      | directory entries =>
          cases hlookup : entries.lookup name with
          | none =>
              rw [follow_of_lookup_eq_none hname hlookup]
              exact .missing (List.nil_append _).symm (.here _) hlookup
          | some inner =>
              rw [follow_of_lookup hname hlookup]
              exact (ih hrest _).cons hlookup

/-- The fault is that of the first step that leads nowhere. -/
theorem follow_eq_iff (hsteps : ∀ s ∈ steps, IsName s) (around : List Entry)
    (res : Except PathFault ByteArray) : follow around d steps = res ↔ Ends d steps res := by
  refine ⟨fun h => h ▸ ends_follow hsteps around, fun h => ?_⟩
  cases h with
  | atFile h =>
      obtain ⟨around', h⟩ := h.exists_follow hsteps around []
      rwa [List.append_nil] at h
  | atDirectory h =>
      obtain ⟨around', h⟩ := h.exists_follow hsteps around []
      rwa [List.append_nil] at h
  | @behindFile front name back bytes hsplit h =>
      obtain ⟨around', h⟩ := h.exists_follow
        (fun s hs => hsteps s (hsplit ▸ List.mem_append_left _ hs)) around (name :: back)
      rw [hsplit, h, follow]
  | @missing front name back entries hsplit h hnone =>
      have hname := hsteps name (hsplit ▸ List.mem_append_right _ List.mem_cons_self)
      obtain ⟨around', h⟩ := h.exists_follow
        (fun s hs => hsteps s (hsplit ▸ List.mem_append_left _ hs)) around (name :: back)
      rw [hsplit, h, follow_of_lookup_eq_none hname hnone]

/-! ## Paths -/

/-- Whether a path is made of names, with a slash between any two. There is at least one. -/
def IsPath (path : String) : Prop := path ≠ "" ∧ ∀ s ∈ path.splitOn "/", IsName s

/-- What is read at a path is where its steps end. -/
theorem read_eq_iff {path : String} (hpath : IsPath path) (res : Except PathFault ByteArray) :
    d.read path = res ↔ Ends d (path.splitOn "/") res := by
  obtain ⟨hne, hsteps⟩ := hpath
  rw [read, if_neg (by simpa using hne), follow_eq_iff hsteps]

/-! ## Running the program in a directory -/

variable {arguments : List String} {styled : Bool}

theorem result_of_rejected {message : String} (hselect : select arguments = .error message) :
    d.result arguments styled = rejectedResult := by
  unfold result resultFrom
  rw [hselect]
  rfl

theorem result_of_selected {s : Selection} (hselect : select arguments = .ok s) :
    d.result arguments styled = s.result styled (d.contents s.path) := by
  unfold result resultFrom
  rw [hselect]
  rfl

/-- The program leaves what the selected mode leaves for the file that it finds. -/
theorem result_of_read {s : Selection} (hselect : select arguments = .ok s)
    (hread : d.read s.path = .ok bytes) : d.result arguments styled = s.result styled (.ok bytes) := by
  rw [result_of_selected hselect]
  unfold contents
  rw [hread]

/-- The program finds a file that was put where it looks, whatever else there is. -/
theorem result_insert {s : Selection} (hselect : select arguments = .ok s) (hpath : IsPath s.path) :
    (insert (file bytes) (s.path.splitOn "/") d).result arguments styled =
      s.result styled (.ok bytes) :=
  result_of_read hselect ((read_eq_iff hpath _).2 (.atFile (leads_insert _ _ _)))

/-- What is put apart from the file that the program finds is not seen by it. -/
theorem result_insert_of_apart {s : Selection} (hselect : select arguments = .ok s)
    (hpath : IsPath s.path) (hread : d.read s.path = .ok bytes)
    (happart : Apart steps (s.path.splitOn "/")) :
    (insert e steps d).result arguments styled = d.result arguments styled := by
  have hread' : (insert e steps d).read s.path = .ok bytes := by
    rw [read_eq_iff hpath] at hread ⊢
    cases hread with
    | atFile h => exact .atFile ((leads_insert_iff happart).2 h)
  rw [result_of_read hselect hread, result_of_read hselect hread']

/-- The program succeeds only with a file that it finds. -/
theorem exists_read_of_result (h : (d.result arguments styled).code = 0) :
    ∃ s bytes, select arguments = .ok s ∧ d.read s.path = .ok bytes := by
  cases hselect : select arguments with
  | error message =>
      rw [result_of_rejected hselect] at h
      cases h
  | ok s =>
      cases hread : d.read s.path with
      | ok bytes => exact ⟨s, bytes, rfl, hread⟩
      | error fault =>
          rw [result_of_selected hselect] at h
          unfold contents at h
          rw [hread] at h
          cases h

end Bucket.Command.Entry
