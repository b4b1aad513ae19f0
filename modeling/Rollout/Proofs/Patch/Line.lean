import Mathlib.Data.List.TakeWhile
import Rollout.Patch.Command
import Rollout.Proofs.Address
import Rollout.Proofs.Generation.Name

/-!
# Proofs/Patch/Line — the running proxy reads back the command that was sent

`ServerCommand.read` takes a line apart as the proxy does: at its spaces, and the third word at its
first slash.  A command whose names are sound and whose address can be parsed is read back as it was
(`ServerCommand.read_text`), so no name and no address can smuggle in a word.
-/

namespace Rollout

/-- The number that a word spells, if it is below a bound. -/
def readBelow (bound : Nat) (word : String) : Option Nat :=
  (Text.ofDigits 10 word.toList).filter (· < bound)

/-- The action that the last words of a line ask for. -/
def ServerAction.read : List String → Option ServerAction
  | ["weight", w] => (readBelow UInt32.size w).map fun n => .setWeight (UInt32.ofNat n)
  | ["state", "maint"] => some .maintain
  | ["state", "ready"] => some .makeReady
  | ["addr", ip, "port", p] =>
    (readBelow UInt16.size p).map fun n => .setAddress ip (UInt16.ofNat n)
  | _ => none

/-- What stands before the first slash of a text, and what behind it. -/
def splitAtSlash (s : String) : Option (String × String) :=
  match s.toList.dropWhile (· != '/') with
  | _ :: rest => some (String.ofList (s.toList.takeWhile (· != '/')), String.ofList rest)
  | [] => none

/-- The words of a line, between its spaces. -/
def words (line : String) : List String := (line.toList.splitOn ' ').map String.ofList

/-- **The command that a line asks for.** -/
def ServerCommand.read (line : String) : Option ServerCommand :=
  match words line with
  | "set" :: "server" :: target :: rest =>
    (splitAtSlash target).bind fun (backend, server) =>
      (ServerAction.read rest).map fun action => ⟨backend, server, action⟩
  | _ => none

/-! ## Words -/

/-- **Words without spaces are found again.** -/
theorem words_intercalate {ws : List String} (hws : ws ≠ []) (h : ∀ w ∈ ws, ' ' ∉ w.toList) :
    words (String.ofList ([' '].intercalate (ws.map String.toList))) = ws := by
  rw [words, String.toList_ofList, List.splitOn_intercalate]
  · simp [Function.comp_def]
  · intro l hl
    obtain ⟨w, hw, rfl⟩ := List.mem_map.mp hl
    exact h w hw
  · simpa using hws

/-- **A text splits at its first slash.** -/
theorem splitAtSlash_append {s : String} (h : '/' ∉ s.toList) (t : String) :
    splitAtSlash (s ++ "/" ++ t) = some (s, t) := by
  have hall : ∀ c ∈ s.toList, (c != '/') = true := fun c hc =>
    bne_iff_ne.mpr fun heq => h (heq ▸ hc)
  have hlist : (s ++ "/" ++ t).toList = s.toList ++ '/' :: t.toList := by
    rw [String.toList_append, String.toList_append, List.append_assoc]
    rfl
  rw [splitAtSlash, hlist, List.dropWhile_append_of_pos hall, List.takeWhile_append_of_pos hall]
  simp

theorem readBelow_decimal {bound n : Nat} (h : n < bound) :
    readBelow bound (Text.decimal n) = some n := by
  rw [readBelow, Text.toList_decimal, Text.ofDigits_digits, Option.filter_some,
    if_pos (decide_eq_true h)]

/-- A decimal spelling has no space in it. -/
theorem no_space_digits (n : Nat) : ' ' ∉ Text.digits n := fun h =>
  absurd (Text.isDigit_of_mem_digits h) (by decide)

/-! ## Actions and commands -/

namespace ServerAction

/-- The words of an action, one by one. -/
def words : ServerAction → List String
  | .setWeight w => ["weight", Text.decimal w.toNat]
  | .maintain => ["state", "maint"]
  | .setAddress ip port => ["addr", ip, "port", Text.decimal port.toNat]
  | .makeReady => ["state", "ready"]

theorem toList_text (a : ServerAction) :
    a.text.toList = [' '].intercalate (a.words.map String.toList) := by
  cases a <;> simp [text, words, List.intercalate]

/-- An action that sets the address, if any, to one that can be parsed. -/
def IsPlain : ServerAction → Prop
  | .setAddress ip _ => (Address.parse ip).isSome = true
  | _ => True

/-- **An action is read back.** -/
theorem read_words (a : ServerAction) : read a.words = some a := by
  cases a with
  | setWeight w =>
    rw [words, read, readBelow_decimal w.toNat_lt_size, Option.map_some, UInt32.ofNat_toNat]
  | maintain => rfl
  | setAddress ip port =>
    rw [words, read, readBelow_decimal port.toNat_lt_size, Option.map_some, UInt16.ofNat_toNat]
  | makeReady => rfl

/-- The words of a plain action are words. -/
theorem no_space_words {a : ServerAction} (h : a.IsPlain) : ∀ w ∈ a.words, ' ' ∉ w.toList := by
  cases a with
  | setWeight w => simp [words, no_space_digits]
  | maintain => simp [words]
  | setAddress ip port =>
    have hip : ' ' ∉ ip.toList := Address.no_space_of_parse h
    simp [words, no_space_digits, hip]
  | makeReady => simp [words]

end ServerAction

namespace ServerCommand

/-- **A command that is one line of words**: sound names, and a plain action. -/
structure IsPlain (c : ServerCommand) : Prop where
  backend : SoundName c.backend
  server : SoundName c.server
  action : c.action.IsPlain

/-- The words of a command. -/
def words (c : ServerCommand) : List String :=
  "set" :: "server" :: (c.backend ++ "/" ++ c.server) :: c.action.words

/-- **The line of a command is its words with spaces between them.** -/
theorem text_eq_intercalate (c : ServerCommand) :
    c.text = String.ofList ([' '].intercalate (c.words.map String.toList)) := by
  apply String.toList_injective
  have hwords : c.action.words.map String.toList ≠ [] := by cases c.action <;> nofun
  have hset : "set server ".toList = "set".toList ++ [' '] ++ "server".toList ++ [' '] := by decide
  have hline : [' '].intercalate (c.words.map String.toList)
      = "set server ".toList ++ ((c.backend ++ "/" ++ c.server).toList ++ [' ']
        ++ c.action.text.toList) := by
    simp only [words, List.map_cons, List.intercalate_cons_cons,
      List.intercalate_cons_of_ne_nil hwords, ServerAction.toList_text, hset, List.append_assoc]
  have htext : c.text = "set server " ++ c.backend ++ "/" ++ c.server ++ " " ++ c.action.text := rfl
  rw [String.toList_ofList, hline, htext]
  simp only [String.toList_append, List.append_assoc]
  rfl

theorem no_space_words {c : ServerCommand} (h : c.IsPlain) : ∀ w ∈ c.words, ' ' ∉ w.toList := by
  intro w hw
  rcases List.mem_cons.mp hw with rfl | hw
  · decide
  rcases List.mem_cons.mp hw with rfl | hw
  · decide
  rcases List.mem_cons.mp hw with rfl | hw
  · rw [String.toList_append, String.toList_append]
    simp [h.backend.no_space, h.server.no_space]
  · exact ServerAction.no_space_words h.action w hw

/-- **The words of a line are those of its command.** -/
theorem words_text {c : ServerCommand} (h : c.IsPlain) : Rollout.words c.text = c.words := by
  rw [text_eq_intercalate]
  exact words_intercalate (List.cons_ne_nil _ _) (no_space_words h)

/-- **The proxy reads back the command that was sent.** -/
theorem read_text {c : ServerCommand} (h : c.IsPlain) : read c.text = some c := by
  rw [read, words_text h, words]
  simp only [splitAtSlash_append h.backend.no_slash, Option.bind_some, ServerAction.read_words,
    Option.map_some]

end ServerCommand

end Rollout
