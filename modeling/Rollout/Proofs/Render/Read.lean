import Rollout.Proofs.Generation.Name
import Rollout.Proofs.Render.Written
import Mathlib.Data.List.Basic

/-!
# Proofs/Render/Read — reading the main file back

`readSections` knows nothing of templates.  It cuts a text into lines, takes a line apart at its
spaces, and begins a section at every line whose first word is that of a section.  Whatever the free
texts of a section hold, a rendered section is read on its own (`readSections_text`), because the line
that opens it comes behind the end of a line and opens a section.
-/

namespace Rollout

/-! ## The reader -/

/-- The words of a line: what stands between its spaces, without the empty ones. -/
def lineWords (line : List Char) : List String :=
  ((line.splitOn ' ').filter (· ≠ [])).map String.ofList

/-- **The lines of a text**, as their words; a line without words is skipped. -/
def readLines (text : String) : List (List String) :=
  ((text.toList.splitOn '\n').map lineWords).filter (· ≠ [])

/-- The words that open a section. -/
def sectionWords : List String := ["global", "defaults", "backend", "listen", "frontend"]

/-- Does a line open a section? -/
def opensSection (line : List String) : Bool := line.head?.any sectionWords.contains

/-- **A section that was read**: the line that opens it, and the lines below. -/
structure ReadSection where
  opening : List String
  body : List (List String)
  deriving DecidableEq, Repr

/-- The lines before the first section, and the sections. -/
def cutSections : List (List String) → List (List String) × List ReadSection
  | [] => ([], [])
  | l :: ls =>
    let (body, rest) := cutSections ls
    if opensSection l then ([], ⟨l, body⟩ :: rest) else (l :: body, rest)

/-- **The sections of a text.** -/
def readSections (text : String) : List ReadSection := (cutSections (readLines text)).2

/-! ## Words -/

/-- A text that does not end a line. -/
def Unbroken (s : String) : Prop := '\n' ∉ s.toList

instance (s : String) : Decidable (Unbroken s) := inferInstanceAs (Decidable ('\n' ∉ s.toList))

theorem Unbroken.append {s t : String} (hs : Unbroken s) (ht : Unbroken t) : Unbroken (s ++ t) := by
  rw [Unbroken, String.toList_append, List.mem_append, not_or]
  exact ⟨hs, ht⟩

/-- A word is not empty, has no space in it and does not end a line. -/
structure IsWord (s : String) : Prop where
  ne_empty : s ≠ ""
  no_space : ' ' ∉ s.toList
  unbroken : Unbroken s

theorem isWord_iff {s : String} : IsWord s ↔ s ≠ "" ∧ ' ' ∉ s.toList ∧ Unbroken s :=
  ⟨fun h => ⟨h.ne_empty, h.no_space, h.unbroken⟩, fun h => ⟨h.1, h.2.1, h.2.2⟩⟩

instance (s : String) : Decidable (IsWord s) := decidable_of_iff' _ isWord_iff

/-- **A sound name is a word.** -/
theorem SoundName.isWord {s : String} (h : SoundName s) : IsWord s :=
  ⟨h.ne_empty, h.no_space, fun hm => absurd (h.no_blank _ hm) (by decide)⟩

/-- The words of a text that is a single line. -/
def tokens (line : String) : List String := lineWords line.toList

/-- The characters of a text that is cut at one of them. -/
theorem toList_append_char {sep : String} {c : Char} (hsep : sep.toList = [c]) (s t : String) :
    (s ++ sep ++ t).toList = s.toList ++ c :: t.toList := by
  rw [String.toList_append, String.toList_append, hsep, List.append_assoc, List.singleton_append]

/-- **The words on either side of a space.** -/
theorem lineWords_append (cs ds : List Char) :
    lineWords (cs ++ ' ' :: ds) = lineWords cs ++ lineWords ds := by
  rw [lineWords, List.splitOn_append_cons_self, List.filter_append, List.map_append, lineWords,
    lineWords]

theorem tokens_append (s t : String) : tokens (s ++ " " ++ t) = tokens s ++ tokens t := by
  rw [tokens, toList_append_char (c := ' ') rfl, lineWords_append, tokens, tokens]

theorem IsWord.tokens_eq {s : String} (h : IsWord s) : tokens s = [s] := by
  have hne : s.toList ≠ [] := fun heq => h.ne_empty (String.toList_eq_nil_iff.mp heq)
  rw [tokens, lineWords, List.splitOn_eq_singleton h.no_space]
  simp [hne]

/-- The first word of a line, and the others. -/
theorem IsWord.tokens_append {w : String} (hw : IsWord w) (s : String) :
    tokens (w ++ " " ++ s) = w :: tokens s := by
  rw [Rollout.tokens_append, hw.tokens_eq]
  rfl

theorem tokens_indent (l : String) : tokens ("    " ++ l) = tokens l :=
  tokens_append "   " l

/-! ## Lines -/

/-- **The lines on either side of the end of a line.** -/
theorem readLines_append (s t : String) :
    readLines (s ++ "\n" ++ t) = readLines s ++ readLines t := by
  rw [readLines, toList_append_char (c := '\n') rfl, List.splitOn_append_cons_self, List.map_append,
    List.filter_append, readLines, readLines]

/-- A single line. -/
theorem readLines_of_unbroken {s : String} (h : Unbroken s) (hs : tokens s ≠ []) :
    readLines s = [tokens s] := by
  rw [readLines, List.splitOn_eq_singleton h, List.map_singleton, ← tokens]
  simp [hs]

/-- **Indented lines are read one by one**, whatever is in them. -/
theorem readLines_indent (s : String) (ls : List String) :
    readLines (s ++ indent ls) = readLines s ++ ls.flatMap fun l => readLines ("    " ++ l) := by
  induction ls generalizing s with
  | nil => simp
  | cons l ls ih =>
    have hcut : s ++ indent (l :: ls) = (s ++ "\n" ++ ("    " ++ l)) ++ indent ls := by
      rw [indent_cons]
      simp only [String.append_assoc]
      rfl
    rw [hcut, ih, readLines_append, List.flatMap_cons, List.append_assoc]

theorem splitOn_append_of_not_mem {α : Type} [BEq α] [LawfulBEq α] {a : α} (ys : List α) :
    ∀ {xs : List α}, a ∉ xs → (xs ++ ys).splitOn a = (ys.splitOn a).modifyHead (xs ++ ·)
  | [], _ => by cases h : ys.splitOn a <;> simp [h]
  | x :: xs, h => by
      obtain ⟨hx, hxs⟩ := not_or.mp (List.mem_cons.not.mp h)
      rw [List.cons_append, List.splitOn_cons_eq_if_modifyHead, if_neg (by simpa using Ne.symm hx),
        splitOn_append_of_not_mem ys hxs, List.modifyHead_modifyHead]
      rfl

/-- **The first word of a text is the first word of its first line.** -/
theorem readLines_word_append {w : String} (hw : IsWord w) (s : String) :
    ∃ l ls, readLines (w ++ " " ++ s) = (w :: l) :: ls := by
  have hlist : (w ++ " " ++ s).toList = (w.toList ++ [' ']) ++ s.toList := by
    rw [String.toList_append, String.toList_append]
    rfl
  have hunbroken : '\n' ∉ w.toList ++ [' '] := by
    rw [List.mem_append, not_or]
    exact ⟨hw.unbroken, by decide⟩
  -- `s` may end the line anywhere, but what it adds to the first one comes behind `w` and a space.
  obtain ⟨first, rest, hsplit⟩ := List.exists_cons_of_ne_nil (List.splitOn_ne_nil '\n' s.toList)
  have hfirst : lineWords (w.toList ++ [' '] ++ first) = w :: lineWords first := by
    rw [List.append_assoc, List.singleton_append, lineWords_append, ← tokens, hw.tokens_eq]
    rfl
  rw [readLines, hlist, splitOn_append_of_not_mem s.toList hunbroken, hsplit, List.modifyHead_cons,
    List.map_cons, hfirst, List.filter_cons_of_pos (by simp)]
  exact ⟨_, _, rfl⟩

/-! ## Sections -/

/-- **What begins with a section adds its sections.** -/
theorem cutSections_append {ls ms : List (List String)} (hms : (cutSections ms).1 = []) :
    cutSections (ls ++ ms)
      = ((cutSections ls).1, (cutSections ls).2 ++ (cutSections ms).2) := by
  induction ls with
  | nil => exact Prod.ext hms rfl
  | cons l ls ih =>
    rw [List.cons_append, cutSections, cutSections, ih]
    cases opensSection l <;> rfl

/-- Lines that open no section are below the one before them. -/
theorem cutSections_of_forall {ls : List (List String)} (h : ∀ l ∈ ls, opensSection l = false) :
    cutSections ls = (ls, []) := by
  induction ls with
  | nil => rfl
  | cons l ls ih =>
    obtain ⟨hl, hls⟩ := List.forall_mem_cons.mp h
    rw [cutSections, ih hls, hl]
    rfl

/-- A line that stays below the one that opened its section. -/
structure StaysBelow (l : String) : Prop where
  unbroken : Unbroken l
  ne_nil : tokens l ≠ []
  opens : opensSection (tokens l) = false

/-- The beginning of a line up to its first space. -/
def firstWord (l : String) : String := String.ofList (l.toList.takeWhile (· ≠ ' '))

/-- **The beginning of a line that stays below**: its first word ends, and opens no section. -/
structure Anchored (l : String) : Prop where
  ends : ' ' ∈ l.toList
  word : IsWord (firstWord l)
  opens : sectionWords.contains (firstWord l) = false
  unbroken : Unbroken l

theorem anchored_iff {l : String} : Anchored l ↔ ' ' ∈ l.toList ∧ IsWord (firstWord l) ∧
    sectionWords.contains (firstWord l) = false ∧ Unbroken l :=
  ⟨fun h => ⟨h.ends, h.word, h.opens, h.unbroken⟩, fun h => ⟨h.1, h.2.1, h.2.2.1, h.2.2.2⟩⟩

instance (l : String) : Decidable (Anchored l) := decidable_of_iff' _ anchored_iff

theorem firstWord_append {w : String} (hw : ' ' ∉ w.toList) (s : String) :
    firstWord (w ++ " " ++ s) = w := by
  have hall : ∀ c ∈ w.toList, decide (c ≠ ' ') = true := fun c hc =>
    decide_eq_true fun heq => hw (heq ▸ hc)
  rw [firstWord, toList_append_char (c := ' ') rfl, List.takeWhile_append_of_pos hall,
    List.takeWhile_cons_of_neg (by decide), List.append_nil, String.ofList_toList]

namespace Anchored

variable {l : String}

theorem exists_eq (hl : Anchored l) : ∃ s, l = firstWord l ++ " " ++ s := by
  obtain ⟨cs, ds, hlist, hcs⟩ := List.eq_append_cons_of_mem hl.ends
  have hcut : l = String.ofList cs ++ " " ++ String.ofList ds := by
    rw [← String.toList_inj, toList_append_char (c := ' ') rfl, String.toList_ofList,
      String.toList_ofList, hlist]
  have hspace : ' ' ∉ (String.ofList cs).toList := by rwa [String.toList_ofList]
  refine ⟨String.ofList ds, ?_⟩
  rw [hcut, firstWord_append hspace]

/-- **Whatever goes on with the line does not change its first word.** -/
theorem append {s : String} (hl : Anchored l) (hs : Unbroken s) : Anchored (l ++ s) := by
  have hword : firstWord (l ++ s) = firstWord l := by
    obtain ⟨t, ht⟩ := hl.exists_eq
    have hcut : l ++ s = firstWord l ++ " " ++ (t ++ s) := by rw [← String.append_assoc, ← ht]
    rw [hcut, firstWord_append hl.word.no_space]
  refine ⟨?_, hword ▸ hl.word, hword ▸ hl.opens, hl.unbroken.append hs⟩
  rw [String.toList_append]
  exact List.mem_append_left _ hl.ends

/-- **An anchored line stays below the one that opened its section.** -/
theorem staysBelow (hl : Anchored l) : StaysBelow l := by
  obtain ⟨s, hs⟩ := hl.exists_eq
  refine ⟨hl.unbroken, ?_, ?_⟩ <;> rw [hs, hl.word.tokens_append]
  · exact List.cons_ne_nil _ _
  · exact hl.opens

end Anchored

namespace ProxySection

variable (p : ProxySection)

/-- The lines of a section. -/
theorem readLines_text : readLines p.text
    = readLines p.opening ++ p.body.flatMap fun l => readLines ("    " ++ l) := by
  have hcut : p.text = "" ++ "\n" ++ ((p.opening ++ indent p.body) ++ "\n" ++ "") := by
    simp only [text, String.append_assoc, String.append_empty, String.empty_append]
  rw [hcut, readLines_append, readLines_append, readLines_indent]
  simp [readLines, lineWords]

/-- A section begins behind the end of a line. -/
theorem readLines_append_text (s : String) :
    readLines (s ++ p.text) = readLines s ++ readLines p.text := by
  have hcut (s : String) : s ++ p.text = s ++ "\n" ++ (p.opening ++ (indent p.body ++ "\n")) := by
    rw [text, String.append_assoc]
  have hself : readLines p.text = readLines (p.opening ++ (indent p.body ++ "\n")) := by
    have := hcut ""
    rw [String.empty_append] at this
    rw [this, readLines_append]
    rfl
  rw [hcut, readLines_append, hself]

theorem isWord_kind : IsWord p.kind.word := by
  cases p.kind <;> decide

theorem opensSection_kind (l : List String) : opensSection (p.kind.word :: l) = true := by
  cases p.kind <;> rfl

/-- The line that opens a section without a name. -/
theorem readLines_opening_of_unnamed (hname : p.name = none) :
    readLines p.opening = [[p.kind.word]] := by
  rw [opening, hname, ← p.isWord_kind.tokens_eq]
  refine readLines_of_unbroken p.isWord_kind.unbroken ?_
  rw [p.isWord_kind.tokens_eq]
  exact List.cons_ne_nil _ _

/-- **The first line of a section opens one**, whatever its name is. -/
theorem cutSections_readLines_text : (cutSections (readLines p.text)).1 = [] := by
  obtain ⟨l, ls, hopening⟩ : ∃ l ls, readLines p.opening = (p.kind.word :: l) :: ls := by
    cases hname : p.name with
    | some name =>
      rw [opening, hname]
      exact readLines_word_append p.isWord_kind name
    | none => exact ⟨[], [], p.readLines_opening_of_unnamed hname⟩
  rw [readLines_text, hopening, List.cons_append, cutSections, p.opensSection_kind]
  rfl

/-- **A section is read on its own**, whatever is before it. -/
theorem readSections_append_text (s : String) :
    readSections (s ++ p.text) = readSections s ++ readSections p.text := by
  rw [readSections, readLines_append_text, cutSections_append p.cutSections_readLines_text]
  rfl

/-- The line that opens a section with a name. -/
theorem readLines_opening {name : String} (hname : p.name = some name) (hunbroken : Unbroken name) :
    readLines p.opening = [p.kind.word :: tokens name] := by
  rw [opening, hname, ← p.isWord_kind.tokens_append]
  refine readLines_of_unbroken ((p.isWord_kind.unbroken.append (by decide)).append hunbroken) ?_
  rw [p.isWord_kind.tokens_append]
  exact List.cons_ne_nil _ _

/-- **A section is read under the line that opens it**, whatever is below that line. -/
theorem exists_mem_readSections_text {name : String} (hname : p.name = some name)
    (hunbroken : Unbroken name) :
    ∃ s ∈ readSections p.text, s.opening = p.kind.word :: tokens name := by
  rw [readSections, readLines_text, p.readLines_opening hname hunbroken, List.singleton_append,
    cutSections, p.opensSection_kind]
  exact ⟨_, List.mem_cons_self, rfl⟩

/-- **A section whose lines stay below the first is read as one section.** -/
theorem readSections_of_staysBelow {words : List String}
    (hopening : readLines p.opening = [p.kind.word :: words]) (hbody : ∀ l ∈ p.body, StaysBelow l) :
    readSections p.text = [⟨p.kind.word :: words, p.body.map tokens⟩] := by
  have hlines : (p.body.flatMap fun l => readLines ("    " ++ l)) = p.body.map tokens := by
    rw [List.map_eq_flatMap]
    refine List.flatMap_congr fun l hl => ?_
    have hne : tokens ("    " ++ l) ≠ [] := tokens_indent l ▸ (hbody l hl).ne_nil
    rw [readLines_of_unbroken (.append (by decide) (hbody l hl).unbroken) hne, tokens_indent]
  have hbelow : ∀ l ∈ p.body.map tokens, opensSection l = false := by
    rw [List.forall_mem_map]
    exact fun l hl => (hbody l hl).opens
  rw [readSections, readLines_text, hopening, hlines, List.singleton_append, cutSections,
    cutSections_of_forall hbelow, p.opensSection_kind]
  rfl

theorem readSections_text {name : String} (hname : p.name = some name) (hunbroken : Unbroken name)
    (hbody : ∀ l ∈ p.body, StaysBelow l) :
    readSections p.text = [⟨p.kind.word :: tokens name, p.body.map tokens⟩] :=
  p.readSections_of_staysBelow (p.readLines_opening hname hunbroken) hbody

end ProxySection

/-- **Sections in a row are read one by one.** -/
theorem readSections_append_join (s : String) (ps : List ProxySection) :
    readSections (s ++ String.join (ps.map ProxySection.text))
      = readSections s ++ ps.flatMap fun p => readSections p.text := by
  induction ps generalizing s with
  | nil => simp
  | cons p ps ih =>
    rw [List.map_cons, String.join_cons, ← String.append_assoc, ih, p.readSections_append_text,
      List.flatMap_cons, List.append_assoc]

/-- **The main file is read section by section.** -/
theorem RenderContext.readSections_text (c : RenderContext) :
    readSections c.text = c.sections.flatMap fun p => readSections p.text := by
  have hcomment : readSections rendered = [] := by decide +kernel
  rw [text, readSections_append_join, hcomment, List.nil_append]

/-- And a section line by line. -/
theorem RenderContext.readSections_lines (c : RenderContext) : readSections c.text =
    c.sections.flatMap fun p => (cutSections (readLines p.opening
      ++ p.body.flatMap fun l => readLines ("    " ++ l))).2 := by
  rw [c.readSections_text]
  simp only [readSections, ProxySection.readLines_text]

end Rollout
