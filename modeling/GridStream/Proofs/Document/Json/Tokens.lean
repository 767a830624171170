import GridStream.Proofs.Document.Json.Number
import Mathlib.Data.List.Forall2

/-!
# The tokens of a document

A text spells tokens if they are what it is taken apart into wherever a value may stand
(`Json.Spells`). Texts and numbers spell themselves, and the form of a composed value spells the
tokens of its parts between brackets, with commas between them (`Json.spells_block`): the ends of
lines and the spaces go unnoticed.
-/

namespace GridStream.Json

variable {c : Char} {cs rest : List Char} {t : Token} {ts more : List Token} {s : String}

/-- A text is taken apart into tokens, however many steps are allowed beyond its length. -/
def Lexes (cs : List Char) (ts : List Token) : Prop :=
  ∀ steps, cs.length ≤ steps → tokensFrom steps cs = some ts

theorem Lexes.nil : Lexes [] [] := fun steps _ => by cases steps <;> rfl

theorem Lexes.space (hc : isSpace c = true) (h : Lexes cs ts) : Lexes (c :: cs) ts := by
  intro steps hsteps
  cases steps with
  | zero => exact absurd hsteps (Nat.not_succ_le_zero _)
  | succ steps =>
    rw [tokensFrom, if_pos hc]
    exact h steps (Nat.le_of_succ_le_succ hsteps)

theorem readToken_nil : readToken [] = none := rfl

theorem readToken_space (hc : isSpace c = true) : readToken (c :: cs) = none := by
  have hc : c = ' ' ∨ c = '\t' ∨ c = '\n' ∨ c = '\r' := by simpa [isSpace, or_assoc] using hc
  rcases hc with rfl | rfl | rfl | rfl <;> rfl

theorem Lexes.token (hread : readToken cs = some (t, rest)) (hlt : rest.length < cs.length)
    (h : Lexes rest ts) : Lexes cs (t :: ts) := by
  intro steps hsteps
  cases cs with
  | nil => cases hlt
  | cons c cs =>
    cases steps with
    | zero => exact absurd hsteps (Nat.not_succ_le_zero _)
    | succ steps =>
      have hspace : ¬ isSpace c = true := fun hc => by
        rw [readToken_space hc] at hread
        cases hread
      rw [tokensFrom, if_neg hspace, hread]
      dsimp only
      rw [h steps (by simp only [List.length_cons] at hlt hsteps; omega), Option.map_some]

/-- The first character of a text, if it is a token of its own, goes before the others. -/
theorem Lexes.mark (hread : readToken (c :: cs) = some (t, cs)) (h : Lexes cs ts) :
    Lexes (c :: cs) (t :: ts) :=
  .token hread (Nat.lt_succ_self _) h

/-! ## Texts that spell tokens -/

/-- A text spells tokens if it is taken apart into them in front of whatever may follow a value. -/
def Spells (s : String) (ts : List Token) : Prop :=
  ∀ rest more, Ends rest → Lexes rest more → Lexes (s.toList ++ rest) (ts ++ more)

theorem spells_token (h : ∀ rest, Ends rest → readToken (s.toList ++ rest) = some (t, rest)) :
    Spells s [t] := by
  intro rest more hrest hmore
  have hne : s.toList ≠ [] := fun hs => by
    have hnil := h [] nofun
    rw [hs, List.append_nil, readToken_nil] at hnil
    cases hnil
  have hlt : rest.length < (s.toList ++ rest).length := by
    have hpos := List.length_pos_iff.2 hne
    rw [List.length_append]
    omega
  exact .token (h rest hrest) hlt hmore

theorem spells_null : Spells "null" [.word .null] := spells_token fun _ _ => rfl

theorem spells_bool (b : Bool) : Spells (if b then "true" else "false") [.word (.bool b)] := by
  cases b
  · exact spells_token fun _ _ => rfl
  · exact spells_token fun _ _ => rfl

theorem spells_int (n : Int) : Spells (toString n) [.word (.int n)] :=
  spells_token fun _ hrest => readToken_int n hrest

theorem spells_float {x : Float} (hnan : Decimal.Parts.ofFloat x ≠ .nan)
    (hx : Decimal.isFinite x = true → ReadsBack x) : Spells (floatText x) [.word (.float x)] :=
  spells_token fun _ hrest => readToken_float hnan hx hrest

theorem spells_quoted (s : String) : Spells (quoted s) [.text s] :=
  spells_token fun _ _ => readToken_quoted s

/-- An entry spells its key, a colon, and its value. -/
theorem spells_entry (key : String) (h : Spells s ts) :
    Spells (quoted key ++ ": " ++ s) (.text key :: .colon :: ts) := by
  intro rest more hrest hmore
  have hvalue := h rest more hrest hmore
  have hcolon : Lexes (':' :: ' ' :: (s.toList ++ rest)) (.colon :: (ts ++ more)) :=
    .mark rfl (.space rfl hvalue)
  have hlt : (':' :: ' ' :: (s.toList ++ rest)).length <
      ((quoted key).toList ++ ':' :: ' ' :: (s.toList ++ rest)).length := by
    rw [toList_quoted, List.length_append]
    exact Nat.lt_add_of_pos_left (Nat.succ_pos _)
  rw [String.toList_append, String.toList_append, List.append_assoc, List.append_assoc]
  exact .token (readToken_quoted key) hlt hcolon

/-! ## Composed values -/

theorem toList_lineStart (level : Nat) :
    (lineStart level).toList = '\n' :: List.replicate (2 * level) ' ' := by
  rw [lineStart, String.toList_append, String.toList_ofList, String.toList_ofList]
  rfl

theorem Lexes.lineStart (level : Nat) (h : Lexes cs ts) :
    Lexes ((lineStart level).toList ++ cs) ts := by
  have hspaces : ∀ n, Lexes (List.replicate n ' ' ++ cs) ts := fun n => by
    induction n with
    | zero => exact h
    | succ n ih => exact .space rfl ih
  rw [toList_lineStart]
  exact .space rfl (hspaces _)

/-- Tokens one after the other, with commas between them. -/
def commaSeparated : List (List Token) → List Token
  | [] => []
  | [ts] => ts
  | ts :: next :: tss => ts ++ .comma :: commaSeparated (next :: tss)

theorem lexes_intercalate {part : String} {parts : List String} {tss : List (List Token)}
    (level : Nat) (hparts : List.Forall₂ Spells (part :: parts) (ts :: tss)) (hrest : Ends rest)
    (hmore : Lexes rest more) :
    Lexes ((String.intercalate ("," ++ lineStart level) (part :: parts)).toList ++ rest)
      (commaSeparated (ts :: tss) ++ more) := by
  induction parts generalizing part ts tss with
  | nil =>
    cases hparts with
    | cons hpart hnil =>
      cases hnil
      rw [String.intercalate_singleton]
      exact hpart rest more hrest hmore
  | cons next parts ih =>
    cases hparts with
    | cons hpart hparts =>
      cases hparts with
      | cons hnext hparts =>
        have hlexes := ih (.cons hnext hparts)
        rw [String.intercalate_cons_cons, commaSeparated, String.toList_append,
          String.toList_append, String.toList_append, List.append_assoc, List.append_assoc,
          List.append_assoc, List.append_assoc]
        exact hpart _ _ (by simp [Ends]) (.mark rfl (hlexes.lineStart _))

/-- A composed value spells the tokens of its parts between those of its brackets. -/
theorem spells_block {opening closing : Char} {openToken closeToken : Token} {parts : List String}
    {tss : List (List Token)} (level : Nat)
    (hopening : ∀ cs, readToken (opening :: cs) = some (openToken, cs))
    (hclosing : ∀ cs, readToken (closing :: cs) = some (closeToken, cs))
    (hparts : List.Forall₂ Spells parts tss) :
    Spells (block opening.toString closing.toString level parts)
      (openToken :: (commaSeparated tss ++ [closeToken])) := by
  intro rest more hrest hmore
  have hclose : Lexes (closing :: rest) (closeToken :: more) := .mark (hclosing rest) hmore
  have hcons : openToken :: (commaSeparated tss ++ [closeToken]) ++ more =
      openToken :: (commaSeparated tss ++ closeToken :: more) := by simp
  rw [hcons]
  cases hparts with
  | nil =>
    rw [block, String.toList_append, Char.toString, Char.toString, String.toList_singleton,
      String.toList_singleton]
    exact .mark (hopening _) hclose
  | @cons part _ parts _ hpart hparts =>
    have hend : Ends ((lineStart level).toList ++ closing :: rest) := by
      rw [toList_lineStart]
      exact fun c hc => .inr (Option.some.inj hc).symm
    have hlexes := lexes_intercalate (level + 1) (.cons hpart hparts) hend (hclose.lineStart level)
    have htext : (block opening.toString closing.toString level (part :: parts)).toList ++ rest =
        opening :: ((lineStart (level + 1)).toList ++
          ((String.intercalate ("," ++ lineStart (level + 1)) (part :: parts)).toList ++
            ((lineStart level).toList ++ closing :: rest))) := by
      simp only [block, Char.toString, String.toList_append, String.toList_singleton,
        List.append_assoc, List.cons_append, List.nil_append]
    rw [htext]
    exact .mark (hopening _) (hlexes.lineStart _)

end GridStream.Json
