import Authguard.Library.JsonText
import Authguard.Library.Pieces
import Authguard.Library.WebUrl
import Authguard.Metatheory.TemplateRendering

/-!
What the custom connector sends. The texts of a request are put into its body and its
path as they are: a body keeps its shape for the texts that spell themselves in a JSON
string, as far as the body has a place for them, and a path its segments exactly where the
identifier makes one segment. The parameters of the query are escaped by the URL library.
-/

namespace Authguard
open Text JsonText

/-! Rendering piece by piece. -/

section
variable {mark cs before after : List Char}

theorem Leftmost.cons {c : Char} (h : Leftmost mark cs before after) (hno : ¬mark <+: c :: cs) :
    Leftmost mark (c :: cs) (c :: before) after := by
  refine ⟨by rw [h.1]; rfl, fun n hn => ?_⟩
  cases n with
  | zero => exact hno
  | succ n => exact h.2 n (Nat.lt_of_succ_lt_succ hn)

theorem Leftmost.append (h : Leftmost mark cs before after) (rest : List Char) :
    Leftmost mark (cs ++ rest) before (after ++ rest) := by
  refine ⟨by rw [h.1, List.append_assoc], fun n hn hmark => h.2 n hn ?_⟩
  have hlength := congrArg List.length h.1
  simp only [List.length_append] at hlength
  rw [List.drop_append_of_le_length (by omega)] at hmark
  exact List.prefix_of_prefix_length_le hmark (List.prefix_append _ _)
    (by rw [List.length_drop]; omega)

theorem Leftmost.occurs (h : Leftmost mark cs before after) : mark <:+: cs :=
  ⟨before, after, h.1.symm⟩

theorem Leftmost.unique {before' after' : List Char} (hmark : mark ≠ [])
    (h : Leftmost mark cs before after) (h' : Leftmost mark cs before' after') :
    before = before' ∧ after = after' := by
  rw [← cutAt_some_iff hmark] at h h'
  rw [h, Option.some.injEq, Prod.mk.injEq] at h'
  exact h'

end

section
variable {cs tail : List Char} {tokens : List (List Char × List Char)}

/-- A text without an opening has no tokens. -/
theorem tokenized_unopened (h : ¬opening <:+: cs) : Tokenized cs [] cs :=
  .text fun _ _ hleft => absurd hleft.occurs h

theorem Tokenized.unique {tokens' : List (List Char × List Char)} {tail' : List Char}
    (h : Tokenized cs tokens tail) (h' : Tokenized cs tokens' tail') :
    tokens = tokens' ∧ tail = tail' := by
  induction h generalizing tokens' tail' with
  | text hno =>
      cases h' with
      | text _ => exact ⟨rfl, rfl⟩
      | token hopen hclose _ => exact absurd (hclose.occurs) (hno _ _ hopen)
  | token hopen hclose _ ih =>
      cases h' with
      | text hno => exact absurd (hclose.occurs) (hno _ _ hopen)
      | token hopen' hclose' hrest' =>
          obtain ⟨rfl, rfl⟩ := hopen.unique opening_ne_nil hopen'
          obtain ⟨rfl, rfl⟩ := hclose.unique closing_ne_nil hclose'
          obtain ⟨rfl, rfl⟩ := ih hrest'
          exact ⟨rfl, rfl⟩

theorem renderedTail_unopened (h : ¬opening <:+: tail) : renderedTail tail = tail := by
  rw [renderedTail, (cutAt_none_iff opening_ne_nil).mpr h]
  rfl

end

theorem fillTokens_cons (resolve : String → Option String) (before name : List Char)
    (tokens : List (List Char × List Char)) :
    fillTokens resolve ((before, name) :: tokens) =
      before ++ fillToken resolve name ++ fillTokens resolve tokens := rfl

/-- The text is rendered so, and every opening in it is closed. -/
def Renders (resolve : String → Option String) (text output : List Char) : Prop :=
  ∃ tokens tail, Tokenized text tokens tail ∧ ¬opening <:+: tail ∧
    output = fillTokens resolve tokens ++ tail

def renderRaw (resolve : String → Option String) (raw : List Char) : List Char :=
  renderChars resolve raw.length raw

section
variable {resolve : String → Option String} {text output : List Char}

theorem Renders.renderRaw (h : Renders resolve text output) :
    renderRaw resolve text = output := by
  obtain ⟨tokens, tail, htokens, htail, rfl⟩ := h
  rw [Authguard.renderRaw, renderChars_tokenized resolve htokens le_rfl, renderedTail_unopened htail]

theorem Renders.nil : Renders resolve [] [] :=
  ⟨[], [], tokenized_unopened (by decide), by decide, rfl⟩

theorem Renders.cons {c : Char} (h : Renders resolve text output) (hno : ¬opening <+: c :: text) :
    Renders resolve (c :: text) (c :: output) := by
  obtain ⟨tokens, tail, htokens, htail, rfl⟩ := h
  cases htokens with
  | text _ =>
      have hunopened : ¬opening <:+: c :: text := by
        rw [List.infix_cons_iff, not_or]
        exact ⟨hno, htail⟩
      exact ⟨[], c :: text, tokenized_unopened hunopened, hunopened, rfl⟩
  | token hopen hclose hrest =>
      exact ⟨_, tail, .token (hopen.cons hno) hclose hrest, htail, rfl⟩

theorem opening_eq : opening = ['\x7b', '\x7b'] := by decide

theorem closing_eq : closing = ['\x7d', '\x7d'] := by decide

theorem not_opening_of_ne {c : Char} (h : c ≠ '\x7b') : ¬opening <+: c :: text := by
  rw [opening_eq, List.cons_prefix_cons]
  exact fun hopen => h hopen.1.symm

theorem not_opening_of_next {c d : Char} (h : d ≠ '\x7b') : ¬opening <+: c :: d :: text := by
  rw [opening_eq, List.cons_prefix_cons, List.cons_prefix_cons]
  exact fun hopen => h hopen.2.1.symm

/-- A piece without openings, before a character that opens nothing. -/
theorem Renders.append_unopened {piece : List Char} {d : Char} (hpiece : ¬opening <:+: piece)
    (hd : d ≠ '\x7b') (h : Renders resolve (d :: text) output) :
    Renders resolve (piece ++ d :: text) (piece ++ output) := by
  induction piece with
  | nil => exact h
  | cons c piece ih =>
      rw [List.infix_cons_iff, not_or] at hpiece
      refine (ih hpiece.2).cons ?_
      cases piece with
      | nil => exact not_opening_of_next hd
      | cons e piece =>
          exact fun hopen => hpiece.1 (List.prefix_of_prefix_length_le hopen
            (List.prefix_append (c :: e :: piece) (d :: text)) (by simp [opening_eq]))

/-- A piece whose openings are closed, before a character that opens nothing. -/
theorem Renders.append {piece tail : List Char} {tokens : List (List Char × List Char)} {d : Char}
    (hpiece : Tokenized piece tokens tail) (htail : ¬opening <:+: tail) (hd : d ≠ '\x7b')
    (h : Renders resolve (d :: text) output) :
    Renders resolve (piece ++ d :: text) (fillTokens resolve tokens ++ tail ++ output) := by
  induction hpiece with
  | text _ => exact h.append_unopened htail hd
  | @token cs before inside name after tail tokens hopen hclose _ ih =>
      obtain ⟨tokens', tail', htokens, hunopened, hfilled⟩ := ih htail
      refine ⟨(before, name) :: tokens', tail', .token (hopen.append _) (hclose.append _) htokens,
        hunopened, ?_⟩
      simp only [fillTokens_cons, List.append_assoc] at hfilled ⊢
      rw [hfilled]

end

/-! Bodies. -/

/-- The value of a string of the template with the known placeholders replaced. -/
inductive Replaced (resolve : String → Option String) :
    List (List Char × List Char) → List Char → List Char → Prop
  | text {tail value : List Char} (h : Literal tail value) : Replaced resolve [] tail value
  | known {before name tail first rest : List Char} {tokens : List (List Char × List Char)}
      {text : String} (hbefore : Literal before first)
      (hname : resolve (trim (String.ofList name)) = some text)
      (hrest : Replaced resolve tokens tail rest) :
      Replaced resolve ((before, name) :: tokens) tail (first ++ text.toList ++ rest)
  | unknown {before name tail first braced rest : List Char}
      {tokens : List (List Char × List Char)} (hbefore : Literal before first)
      (hname : resolve (trim (String.ofList name)) = none)
      (hbraced : Literal (opening ++ name ++ closing) braced)
      (hrest : Replaced resolve tokens tail rest) :
      Replaced resolve ((before, name) :: tokens) tail (first ++ braced ++ rest)

/-- Only the values of strings may differ, and they are those of the template with the
placeholders replaced. -/
inductive Corresponds (resolve : String → Option String) : Lexeme → Lexeme → Prop
  | plain (c : Char) : Corresponds resolve (.plain c) (.plain c)
  | key (raw : List Char) : Corresponds resolve (.key raw) (.key raw)
  | value {raw tail raw' value : List Char} {tokens : List (List Char × List Char)}
      (htokens : Tokenized raw tokens tail) (hreplaced : Replaced resolve tokens tail value)
      (hliteral : Literal raw' value) : Corresponds resolve (.value raw) (.value raw')

/-- Placeholders stand only in values, and are closed there. -/
def InValues (ls : List Lexeme) : Prop :=
  (∀ raw, .key raw ∈ ls → ¬opening <:+: raw) ∧
    ∀ raw, .value raw ∈ ls → ∃ tokens tail, Tokenized raw tokens tail ∧ ¬opening <:+: tail

/-- What is rendered is JSON of the same shape. -/
def KeepsShape (resolve : String → Option String) (template output : String) : Prop :=
  ∀ ls, IsText template.toList ls → InValues ls →
    ∃ ls', IsText output.toList ls' ∧ List.Forall₂ (Corresponds resolve) ls ls'

def SpellsItself (text : String) : Prop := ∀ c ∈ text.toList, isPlain c = true

/-- The texts that stand for the tokens spell themselves. -/
def TextsPlain (resolve : String → Option String) (tokens : List (List Char × List Char)) : Prop :=
  ∀ token ∈ tokens, ∀ text, resolve (trim (String.ofList token.2)) = some text → SpellsItself text

/-- A string of the template has a place for what the name stands for. -/
def Places (template name : String) : Prop :=
  ∃ ls raw tokens tail, IsText template.toList ls ∧ InValues ls ∧ .value raw ∈ ls ∧
    Tokenized raw tokens tail ∧ ∃ token ∈ tokens, trim (String.ofList token.2) = name

section
variable {resolve : String → Option String}

/-- A string with placeholders is rendered to one that means what was asked for. -/
theorem replaced_literal {raw tail original : List Char} {tokens : List (List Char × List Char)}
    (hplain : TextsPlain resolve tokens) (h : Tokenized raw tokens tail)
    (hliteral : Literal raw original) :
    ∃ value, Replaced resolve tokens tail value ∧
      Literal (fillTokens resolve tokens ++ tail) value := by
  induction h generalizing original with
  | text _ => exact ⟨original, .text hliteral, hliteral⟩
  | @token cs before inside name after tail tokens hopen hclose _ ih =>
      have hcs : cs = before ++ '\x7b' :: ('\x7b' :: inside) := by
        rw [hopen.1, List.append_assoc]
        rfl
      have hinside : '\x7b' :: '\x7b' :: inside =
          (opening ++ name ++ ['\x7d']) ++ '\x7d' :: after := by
        rw [hclose.1]
        simp [opening, closing]
      obtain ⟨first, _, hfirst, hbraces, -⟩ := hliteral.split (.inl rfl) hcs
      obtain ⟨token, _, htoken, hafter, -⟩ := hbraces.split (.inr rfl) hinside
      obtain ⟨_, -, hafter⟩ := hafter.tail (.inr rfl)
      obtain ⟨hfilled, hothers⟩ := List.forall_mem_cons.mp hplain
      obtain ⟨rest, hreplaced, hrest⟩ := ih hothers hafter
      have hbraced : opening ++ name ++ closing = (opening ++ name ++ ['\x7d']) ++ ['\x7d'] := by
        simp [closing]
      have hbrace : Literal ['\x7d'] ['\x7d'] := literal_plain (by simp [isPlain])
      rw [fillTokens_cons, List.append_assoc, fillToken]
      cases hname : resolve (trim (String.ofList name)) with
      | some text =>
          exact ⟨_, .known hfirst hname hreplaced,
            (hfirst.append (literal_plain (hfilled _ hname))).append hrest⟩
      | none =>
          have hclosed := htoken.append hbrace
          rw [← hbraced] at hclosed
          exact ⟨_, .unknown hfirst hname hclosed hreplaced, (hfirst.append hclosed).append hrest⟩

theorem lexeme_text_head {l : Lexeme} (h : l ≠ brace) :
    ∃ d rest, l.text = d :: rest ∧ d ≠ '\x7b' := by
  cases l with
  | plain c =>
      refine ⟨c, [], rfl, ?_⟩
      rintro rfl
      exact h rfl
  | key raw => exact ⟨'"', raw ++ ['"'], rfl, by decide⟩
  | value raw => exact ⟨'"', raw ++ ['"'], rfl, by decide⟩

/-- A body is rendered string by string. -/
theorem renders_lexemes {ls : List Lexeme} (hapart : Apart ls) (hvalues : InValues ls) :
    Renders resolve (ls.flatMap Lexeme.text)
      ((ls.map (Lexeme.mapValue (renderRaw resolve))).flatMap Lexeme.text) := by
  induction ls with
  | nil => exact .nil
  | cons l ls ih =>
      have hrest := ih hapart.tail
        ⟨fun raw hraw => hvalues.1 raw (.tail _ hraw), fun raw hraw => hvalues.2 raw (.tail _ hraw)⟩
      have hquote : Renders resolve ('"' :: ls.flatMap Lexeme.text) _ :=
        hrest.cons (not_opening_of_ne (by decide))
      simp only [List.map_cons, List.flatMap_cons]
      cases l with
      | plain c =>
          refine hrest.cons ?_
          cases ls with
          | nil =>
              intro hopen
              have hlength := hopen.length_le
              rw [opening_eq] at hlength
              simp at hlength
          | cons next ls =>
              by_cases hc : Lexeme.plain c = brace
              · have hnext : next ≠ brace := fun hnext =>
                  (List.isChain_cons_cons.mp hapart).1 ⟨hc, hnext⟩
                obtain ⟨d, rest, htext, hd⟩ := lexeme_text_head hnext
                rw [List.flatMap_cons, htext]
                exact not_opening_of_next hd
              · exact not_opening_of_ne fun heq => hc (congrArg Lexeme.plain heq)
      | key raw =>
          have hraw := hvalues.1 raw (.head _)
          have hkey := (hquote.append_unopened hraw (by decide)).cons
            (@not_opening_of_ne _ '"' (by decide))
          simpa [Lexeme.text, Lexeme.mapValue] using hkey
      | value raw =>
          obtain ⟨tokens, tail, htokens, htail⟩ := hvalues.2 raw (.head _)
          have hraw : Renders resolve raw (fillTokens resolve tokens ++ tail) :=
            ⟨tokens, tail, htokens, htail, rfl⟩
          have hvalue := (hquote.append htokens htail (by decide)).cons
            (@not_opening_of_ne _ '"' (by decide))
          simpa [Lexeme.text, Lexeme.mapValue, hraw.renderRaw] using hvalue

/-- Where the values that the body has a place for spell themselves, it keeps its shape. -/
theorem keepsShape_render {template : String}
    (hplain : ∀ name text, Places template name → resolve name = some text → SpellsItself text) :
    KeepsShape resolve template (render template resolve) := by
  intro ls htext hvalues
  have hliteral : ∀ raw, .value raw ∈ ls → ∃ tokens tail value, Tokenized raw tokens tail ∧
      Replaced resolve tokens tail value ∧ Literal (renderRaw resolve raw) value := by
    intro raw hraw
    obtain ⟨tokens, tail, htokens, htail⟩ := hvalues.2 raw hraw
    obtain ⟨original, horiginal⟩ := htext.literals _ hraw raw (.inr rfl)
    have hplaced : TextsPlain resolve tokens := fun token htoken text hname =>
      hplain _ text ⟨ls, raw, tokens, tail, htext, hvalues, hraw, htokens, token, htoken, rfl⟩ hname
    obtain ⟨value, hreplaced, hvalue⟩ := replaced_literal hplaced htokens horiginal
    have hrenders : Renders resolve raw (fillTokens resolve tokens ++ tail) :=
      ⟨tokens, tail, htokens, htail, rfl⟩
    exact ⟨tokens, tail, value, htokens, hreplaced, hrenders.renderRaw.symm ▸ hvalue⟩
  have hrendered : renderRaw resolve _ = _ := (renders_lexemes htext.reads.apart.1 hvalues).renderRaw
  rw [← htext.text_eq] at hrendered
  refine ⟨ls.map (Lexeme.mapValue (renderRaw resolve)), ?_, ?_⟩
  · rw [render, String.toList_ofList]
    rw [renderRaw] at hrendered
    rw [hrendered]
    refine htext.mapValue fun raw hraw => ?_
    obtain ⟨tokens, tail, value, -, -, hvalue⟩ := hliteral raw hraw
    exact ⟨value, hvalue⟩
  · rw [List.forall₂_map_right_iff, List.forall₂_same]
    intro l hl
    cases l with
    | plain c => exact .plain c
    | key raw => exact .key raw
    | value raw =>
        obtain ⟨tokens, tail, value, htokens, hreplaced, hvalue⟩ := hliteral raw hl
        exact .value htokens hreplaced hvalue

end

/-! What a body that keeps its shape says about the texts. -/

/-- Behind the first placeholder of a string stands no escape. -/
def UnescapedBehind (raw : List Char) : Prop :=
  ∀ before inside, Leftmost opening raw before inside → '\\' ∉ inside

def NoEscapeBehind (template : String) : Prop :=
  ∀ ls, IsText template.toList ls → InValues ls → ∀ raw, .value raw ∈ ls → UnescapedBehind raw

def Unescaped (resolve : String → Option String) (tokens : List (List Char × List Char)) : Prop :=
  ∀ token ∈ tokens, ∀ text, resolve (trim (String.ofList token.2)) = some text →
    '\\' ∉ text.toList

section
variable {resolve : String → Option String} {raw tail value raw' rest rest' : List Char}
  {tokens : List (List Char × List Char)}

theorem Tokenized.unescaped (h : Tokenized raw tokens tail) (hslash : '\\' ∉ raw) :
    (∀ token ∈ tokens, '\\' ∉ token.1 ∧ '\\' ∉ token.2) ∧ '\\' ∉ tail := by
  induction h with
  | text _ => exact ⟨nofun, hslash⟩
  | token hopen hclose _ ih =>
      rw [hopen.1, hclose.1] at hslash
      simp only [List.mem_append, not_or] at hslash
      obtain ⟨⟨hbefore, -⟩, ⟨hname, -⟩, hafter⟩ := hslash
      obtain ⟨htokens, htail⟩ := ih hafter
      exact ⟨List.forall_mem_cons.mpr ⟨⟨hbefore, hname⟩, htokens⟩, htail⟩

theorem braced_unescaped {name : List Char} (hname : '\\' ∉ name) :
    '\\' ∉ opening ++ name ++ closing := by
  simp only [List.mem_append, not_or]
  exact ⟨⟨by decide, hname⟩, by decide⟩

theorem fillToken_known {name : List Char} {text : String}
    (h : resolve (trim (String.ofList name)) = some text) : fillToken resolve name = text.toList := by
  rw [fillToken, h]

theorem fillToken_unknown {name : List Char} (h : resolve (trim (String.ofList name)) = none) :
    fillToken resolve name = opening ++ name ++ closing := by
  rw [fillToken, h]

/-- Without escapes a string stands for what is rendered for it. -/
theorem Replaced.eq_of_unescaped (h : Replaced resolve tokens tail value)
    (htokens : ∀ token ∈ tokens, '\\' ∉ token.1 ∧ '\\' ∉ token.2) (htail : '\\' ∉ tail) :
    value = fillTokens resolve tokens ++ tail := by
  induction h with
  | text hliteral => exact hliteral.eq_of_unescaped htail
  | known hbefore hname _ ih =>
      obtain ⟨⟨hfirst, -⟩, hothers⟩ := List.forall_mem_cons.mp htokens
      rw [fillTokens_cons, fillToken_known hname, hbefore.eq_of_unescaped hfirst, ih hothers htail]
      simp only [List.append_assoc]
  | unknown hbefore hname hbraced _ ih =>
      obtain ⟨⟨hfirst, hinner⟩, hothers⟩ := List.forall_mem_cons.mp htokens
      rw [fillTokens_cons, fillToken_unknown hname, hbefore.eq_of_unescaped hfirst,
        hbraced.eq_of_unescaped (braced_unescaped hinner), ih hothers htail]
      simp only [List.append_assoc]

/-- Behind the first placeholder a string stands for what is rendered there. -/
theorem Replaced.behind {before name : List Char}
    (h : Replaced resolve ((before, name) :: tokens) tail value) (hinner : '\\' ∉ name)
    (htokens : ∀ token ∈ tokens, '\\' ∉ token.1 ∧ '\\' ∉ token.2) (htail : '\\' ∉ tail) :
    ∃ first, Literal before first ∧
      value = first ++ (fillToken resolve name ++ (fillTokens resolve tokens ++ tail)) := by
  cases h with
  | known hbefore hname hrest =>
      refine ⟨_, hbefore, ?_⟩
      rw [fillToken_known hname, hrest.eq_of_unescaped htokens htail, List.append_assoc]
  | unknown hbefore hname hbraced hrest =>
      refine ⟨_, hbefore, ?_⟩
      rw [fillToken_unknown hname, hbraced.eq_of_unescaped (braced_unescaped hinner),
        hrest.eq_of_unescaped htokens htail, List.append_assoc]

theorem textsPlain_of_filled
    (h : ∀ token ∈ tokens, ∀ c ∈ fillToken resolve token.2, isPlain c = true) :
    TextsPlain resolve tokens :=
  fun token htoken _ hname c hc => h token htoken c (fillToken_known hname ▸ hc)

/-- Where no escape stands behind a placeholder, no length is left over for one in a text. -/
theorem Replaced.plain_behind (htokens : Tokenized raw tokens tail) (hbehind : UnescapedBehind raw)
    (h : Replaced resolve tokens tail value) (hliteral : Literal raw' value)
    (heq : raw' ++ '"' :: rest = fillTokens resolve tokens ++ tail ++ '"' :: rest') :
    TextsPlain resolve tokens := by
  cases htokens with
  | text _ => exact nofun
  | @token _ before inside name after _ tokens hopen hclose hrest =>
      have hinside := hbehind before inside hopen
      rw [hclose.1] at hinside
      simp only [List.mem_append, not_or] at hinside
      obtain ⟨⟨hname, -⟩, hafter⟩ := hinside
      obtain ⟨hothers, htail⟩ := hrest.unescaped hafter
      obtain ⟨first, hfirst, rfl⟩ := h.behind hname hothers htail
      rw [fillTokens_cons, List.append_assoc, List.append_assoc, List.append_assoc] at heq
      obtain ⟨raw', hraw', hbegins⟩ := hfirst.strip hliteral heq
      have hplain := hraw'.plain_of_self (hbegins.trans (by simp only [List.append_assoc]; rfl))
      refine textsPlain_of_filled (List.forall_mem_cons.mpr ⟨fun c hc => ?_,
        fun token htoken c hc => ?_⟩)
      · exact hplain c (List.mem_append_left _ hc)
      · have hfilled : c ∈ fillTokens resolve tokens :=
          List.mem_flatMap.mpr ⟨token, htoken, List.mem_append_right _ hc⟩
        exact hplain c (List.mem_append_right _ (List.mem_append_left _ hfilled))

/-- Without a backslash in the texts the first character that does not spell itself has no
place in a string. -/
theorem Replaced.plain_unescaped (hslash : Unescaped resolve tokens)
    (h : Replaced resolve tokens tail value) (hliteral : Literal raw' value)
    (heq : raw' ++ '"' :: rest = fillTokens resolve tokens ++ tail ++ '"' :: rest') :
    TextsPlain resolve tokens := by
  induction h generalizing raw' with
  | text _ => exact nofun
  | @known before name tail first value tokens text hbefore hname _ ih =>
      obtain ⟨hfirst, hothers⟩ := List.forall_mem_cons.mp hslash
      rw [fillTokens_cons, fillToken_known hname] at heq
      simp only [List.append_assoc] at heq hliteral
      obtain ⟨raw', hraw', hbegins⟩ := hbefore.strip hliteral heq
      have hplain := hraw'.plain_of_same (hfirst _ hname) hbegins
      obtain ⟨raw', hraw', hrest⟩ := (literal_plain hplain).strip hraw' hbegins
      refine List.forall_mem_cons.mpr ⟨fun other hother => ?_, ih hothers hraw' ?_⟩
      · rw [hname, Option.some.injEq] at hother
        exact hother ▸ hplain
      · rw [hrest, List.append_assoc]
  | unknown hbefore hname hbraced _ ih =>
      obtain ⟨-, hothers⟩ := List.forall_mem_cons.mp hslash
      rw [fillTokens_cons, fillToken_unknown hname] at heq
      simp only [List.append_assoc] at heq hliteral
      obtain ⟨raw', hraw', hbegins⟩ := hbefore.strip hliteral heq
      obtain ⟨raw', hraw', hrest⟩ := hbraced.strip hraw'
        (hbegins.trans (by simp only [List.append_assoc]; rfl))
      refine List.forall_mem_cons.mpr ⟨fun other hother => ?_, ih hothers hraw' ?_⟩
      · rw [hname] at hother
        cases hother
      · rw [hrest, List.append_assoc]

/-- String by string: what is read in a string that keeps its shape is what is rendered there. -/
theorem textsPlain_of_corresponds {ls ls' : List Lexeme}
    (h : List.Forall₂ (Corresponds resolve) ls ls')
    (hliterals : ∀ raw, .value raw ∈ ls → ∃ original, Literal raw original)
    (hvalues : ∀ raw, .value raw ∈ ls → ∃ tokens tail, Tokenized raw tokens tail ∧
      ¬opening <:+: tail)
    (hapart : ∀ raw, .value raw ∈ ls → UnescapedBehind raw ∨
      ∀ tokens tail, Tokenized raw tokens tail → Unescaped resolve tokens)
    (htext : (ls.map (Lexeme.mapValue (renderRaw resolve))).flatMap Lexeme.text =
      ls'.flatMap Lexeme.text) :
    ∀ raw, .value raw ∈ ls → ∀ tokens tail, Tokenized raw tokens tail →
      TextsPlain resolve tokens := by
  induction h with
  | nil => nofun
  | @cons l l' ls ls' hfirst _ ih =>
      have hrest := ih (fun raw hraw => hliterals raw (.tail _ hraw))
        (fun raw hraw => hvalues raw (.tail _ hraw)) fun raw hraw => hapart raw (.tail _ hraw)
      simp only [List.map_cons, List.flatMap_cons] at htext
      cases hfirst with
      | plain c =>
          intro raw hraw
          exact hrest (List.cons.inj htext).2 raw (by simpa using hraw)
      | key other =>
          intro raw hraw
          exact hrest (List.append_cancel_left htext) raw (by simpa using hraw)
      | @value raw tail raw' value tokens htokens hreplaced hliteral =>
          obtain ⟨tokens', tail', htokens', htail⟩ := hvalues raw (.head _)
          obtain ⟨rfl, rfl⟩ := htokens'.unique htokens
          have hrenders : Renders resolve raw (fillTokens resolve tokens' ++ tail') :=
            ⟨tokens', tail', htokens, htail, rfl⟩
          simp only [Lexeme.mapValue, Lexeme.text, hrenders.renderRaw, List.cons_append,
            List.append_assoc, List.nil_append, List.cons.injEq, true_and] at htext
          have heq : raw' ++ '"' :: ls'.flatMap Lexeme.text =
              fillTokens resolve tokens' ++ tail' ++
                '"' :: (ls.map (Lexeme.mapValue (renderRaw resolve))).flatMap Lexeme.text := by
            rw [← htext, List.append_assoc]
          have hplain : TextsPlain resolve tokens' := by
            obtain hbehind | hslash := hapart raw (.head _)
            · exact hreplaced.plain_behind htokens hbehind hliteral heq
            · exact hreplaced.plain_unescaped (hslash _ _ htokens) hliteral heq
          obtain ⟨original, horiginal⟩ := hliterals raw (.head _)
          obtain ⟨_, -, hrendered⟩ := replaced_literal hplain htokens horiginal
          have hsame := hrest (hliteral.closes hrendered heq).2.symm
          intro other hother
          obtain hother | hother := List.mem_cons.mp hother
          · cases hother
            intro tokens tail hother
            obtain ⟨rfl, -⟩ := hother.unique htokens
            exact hplain
          · exact hsame other hother

/-- A body that keeps its shape has places for texts that spell themselves only. -/
theorem spellsItself_of_keepsShape {template name text : String}
    (hapart : NoEscapeBehind template ∨
      ∀ name text, resolve name = some text → '\\' ∉ text.toList)
    (h : KeepsShape resolve template (render template resolve)) (hplaces : Places template name)
    (htext : resolve name = some text) : SpellsItself text := by
  obtain ⟨ls, raw, tokens, tail, hread, hvalues, hraw, htokens, token, htoken, rfl⟩ := hplaces
  obtain ⟨ls', houtput, hcorresponds⟩ := h ls hread hvalues
  have hrendered : renderRaw resolve _ = _ :=
    (renders_lexemes hread.reads.apart.1 hvalues).renderRaw
  rw [← hread.text_eq] at hrendered
  have hsame := houtput.text_eq
  rw [render, String.toList_ofList, ← renderRaw, hrendered] at hsame
  refine textsPlain_of_corresponds hcorresponds (fun raw hraw => hread.literals _ hraw raw (.inr rfl))
    hvalues.2 (fun raw hraw => ?_) hsame raw hraw tokens tail htokens token htoken text htext
  obtain hbehind | hslash := hapart
  · exact .inl (hbehind ls hread hvalues raw hraw)
  · exact .inr fun tokens tail _ token _ text hname => hslash _ text hname

end

/-! A body that is one placeholder. -/

/-- The placeholder between quotation marks. -/
def quotedPlaceholder (name : String) : String :=
  String.ofList ('"' :: (opening ++ name.toList ++ closing) ++ ['"'])

theorem tokenized_placeholder {name : List Char} (hname : '\x7d' ∉ name) :
    Tokenized (opening ++ name ++ closing) [([], name)] [] := by
  have hopen : Leftmost opening (opening ++ name ++ closing) [] (name ++ closing) :=
    ⟨by rw [List.nil_append, List.append_assoc], nofun⟩
  have hclose : Leftmost closing (name ++ closing) name [] := by
    refine ⟨(List.append_nil _).symm, fun n hn hmark => ?_⟩
    rw [closing_eq, List.drop_append_of_le_length hn.le, List.drop_eq_getElem_cons hn,
      List.cons_append, List.cons_prefix_cons] at hmark
    exact hname (hmark.1 ▸ List.getElem_mem hn)
  exact .token hopen hclose (tokenized_unopened (by decide))

theorem quotedPlaceholder_places {name : String} (hclosed : '\x7d' ∉ name.toList)
    (hplain : ∀ c ∈ opening ++ name.toList ++ closing, isPlain c = true) :
    Places (quotedPlaceholder name) (trim name) := by
  have htoken := tokenized_placeholder hclosed
  have hread : IsText (quotedPlaceholder name).toList
      [.value (opening ++ name.toList ++ closing)] := by
    refine ⟨?_, .string _, ?_⟩
    · rw [quotedPlaceholder, String.toList_ofList]
      simp [Lexeme.text]
    · intro l hl raw hraw
      obtain rfl := List.mem_singleton.mp hl
      obtain rfl : opening ++ name.toList ++ closing = raw := by simpa using hraw
      exact ⟨_, literal_plain hplain⟩
  have hvalues : InValues [.value (opening ++ name.toList ++ closing)] := by
    refine ⟨by simp, fun raw hraw => ?_⟩
    obtain rfl : raw = opening ++ name.toList ++ closing := by simpa using hraw
    exact ⟨_, _, htoken, by decide⟩
  exact ⟨_, _, _, _, hread, hvalues, List.mem_singleton_self _, htoken, _,
    List.mem_singleton_self _, by rw [String.ofList_toList]⟩

/-! Paths. -/

/-- A character of a path as it is configured, or the place of the identifier. -/
inductive PathAtom
  | char (c : Char)
  | slot
  deriving DecidableEq

def PathAtom.fill (externalId : String) : PathAtom → List Char
  | .char c => [c]
  | .slot => externalId.toList

def kindValue (kind : PrincipalKind) (placeholder : String) : Option String :=
  if placeholder = "kind" then some (kindPlaceholderValue kind) else none

def pathValues (externalId : String) (kind : PrincipalKind) (placeholder : String) :
    Option String :=
  if placeholder = "external_id" then some externalId else kindValue kind placeholder

def nameAtoms (kind : PrincipalKind) (name : List Char) : List PathAtom :=
  if trim (String.ofList name) = "external_id" then [.slot]
  else (fillToken (kindValue kind) name).map .char

def pathAtoms (kind : PrincipalKind) (tokens : List (List Char × List Char)) (tail : List Char) :
    List PathAtom :=
  (tokens.flatMap fun token => token.1.map .char ++ nameAtoms kind token.2) ++
    (renderedTail tail).map .char

/-- The segments of a path as it is configured. -/
def segmentTemplates (kind : PrincipalKind) (tokens : List (List Char × List Char))
    (tail : List Char) : List (List PathAtom) :=
  ((pathAtoms kind tokens tail).splitOn (.char '/')).filter (· ≠ [])

def fillSegment (externalId : String) (segment : List PathAtom) : String :=
  String.ofList (segment.flatMap (PathAtom.fill externalId))

/-- The segments are those of the configuration with the identifier in its places, and
where it stands the URL has one segment. `read` are the segments that the URL library
makes of a text it is given for one. -/
def KeepsSegments (read : String → List String) (path : String) (kind : PrincipalKind)
    (externalId : String) (segments : List String) : Prop :=
  ∀ tokens tail, Tokenized path.toList tokens tail →
    segments = (segmentTemplates kind tokens tail).map (fillSegment externalId) ∧
      ∀ segment ∈ segmentTemplates kind tokens tail, .slot ∈ segment →
        (read (fillSegment externalId segment)).length = 1

/-- The dot segments of the URL standard, which drops tabs and line breaks. -/
def IsDots (segment : String) : Prop :=
  String.ofList (segment.toList.filter fun c => !Url.isDropped c) ∈ [".", ".."]

instance : DecidablePred IsDots := fun _ => List.instDecidableMemOfLawfulBEq _ _

section
variable {externalId : String} {kind : PrincipalKind} {tokens : List (List Char × List Char)}
  {tail : List Char}

theorem flatMap_char (cs : List Char) :
    (cs.map PathAtom.char).flatMap (PathAtom.fill externalId) = cs := by
  rw [List.flatMap_map]
  exact List.flatMap_singleton' cs

theorem flatMap_nameAtoms (name : List Char) :
    (nameAtoms kind name).flatMap (PathAtom.fill externalId) =
      fillToken (pathValues externalId kind) name := by
  by_cases hname : trim (String.ofList name) = "external_id"
  · have hvalue : pathValues externalId kind (trim (String.ofList name)) = some externalId :=
      if_pos hname
    rw [nameAtoms, if_pos hname, fillToken, hvalue]
    exact List.append_nil _
  · have hvalue : pathValues externalId kind (trim (String.ofList name)) =
        kindValue kind (trim (String.ofList name)) := if_neg hname
    rw [nameAtoms, if_neg hname, flatMap_char, fillToken, fillToken, hvalue]

theorem flatMap_pathAtoms :
    (pathAtoms kind tokens tail).flatMap (PathAtom.fill externalId) =
      fillTokens (pathValues externalId kind) tokens ++ renderedTail tail := by
  rw [pathAtoms, List.flatMap_append, flatMap_char, List.flatMap_assoc, fillTokens]
  congr 1
  refine List.flatMap_congr fun token _ => ?_
  rw [List.flatMap_append, flatMap_char, flatMap_nameAtoms]

theorem render_path {path : String} (h : Tokenized path.toList tokens tail) :
    (render path (pathValues externalId kind)).toList =
      (pathAtoms kind tokens tail).flatMap (PathAtom.fill externalId) := by
  rw [render, String.toList_ofList, renderChars_tokenized _ h le_rfl, flatMap_pathAtoms]

/-- A text that the URL has one segment for. -/
structure IsSegment (text : String) : Prop where
  slash : '/' ∉ text.toList
  ne : text ≠ ""
  dots : ¬IsDots text

theorem fill_free {segment : List PathAtom} (hchar : .char '/' ∉ segment)
    (hslot : .slot ∈ segment → '/' ∉ (fillSegment externalId segment).toList) :
    '/' ∉ segment.flatMap (PathAtom.fill externalId) := by
  intro hmem
  obtain ⟨atom, hatom, hslash⟩ := List.mem_flatMap.mp hmem
  cases atom with
  | char c => exact hchar (List.mem_singleton.mp hslash ▸ hatom)
  | slot =>
      refine hslot hatom ?_
      rw [fillSegment, String.toList_ofList]
      exact hmem

theorem fill_nil_iff {segment : List PathAtom}
    (hslot : .slot ∈ segment → fillSegment externalId segment ≠ "") :
    segment.flatMap (PathAtom.fill externalId) = [] ↔ segment = [] := by
  constructor
  · intro hnil
    cases segment with
    | nil => rfl
    | cons atom segment =>
        cases atom with
        | char c => simp [PathAtom.fill] at hnil
        | slot => exact absurd (String.ofList_eq_empty_iff.mpr hnil) (hslot List.mem_cons_self)
  · rintro rfl
    rfl

/-- Where the identifier makes one segment of every segment it stands in, the path is cut as
it is configured. -/
theorem pathSegments_render {path : String} (h : Tokenized path.toList tokens tail)
    (hslots : ∀ segment ∈ segmentTemplates kind tokens tail, .slot ∈ segment →
      IsSegment (fillSegment externalId segment)) :
    pathSegments (render path (pathValues externalId kind)) =
      (segmentTemplates kind tokens tail).map (fillSegment externalId) := by
  have hpieces : ∀ segment ∈ (pathAtoms kind tokens tail).splitOn (.char '/'), .slot ∈ segment →
      IsSegment (fillSegment externalId segment) := by
    intro segment hsegment hslot
    have hne : segment ≠ [] := List.ne_nil_of_mem hslot
    exact hslots segment (List.mem_filter.mpr ⟨hsegment, decide_eq_true hne⟩) hslot
  have hfree : ∀ piece ∈ ((pathAtoms kind tokens tail).splitOn (.char '/')).map
      (·.flatMap (PathAtom.fill externalId)), '/' ∉ piece :=
    List.forall_mem_map.mpr fun atoms hatoms => fill_free (Pieces.piece_free _ hatoms)
      fun hslot => (hpieces atoms hatoms hslot).slash
  rw [pathSegments, splitChar, render_path h, Pieces.flatMap_splitOn (.char '/') rfl,
    List.splitOn_intercalate _ hfree (by simp [List.splitOn_ne_nil]), List.map_map, segmentTemplates,
    List.filter_map]
  refine congrArg (List.map _) (List.filter_congr fun segment hsegment => ?_)
  rw [Function.comp_apply, Function.comp_apply, decide_eq_decide, ne_eq, ne_eq, not_iff_not,
    ← fill_nil_iff fun hslot => (hpieces segment hsegment hslot).ne]
  exact String.ofList_eq_empty_iff

/-- A path keeps its segments exactly where the identifier makes one segment of every segment
that it stands in. -/
theorem keepsSegments_iff {read : String → List String}
    (hread : ∀ segment, (read segment).length = 1 ↔ ¬IsDots segment) (path : String) :
    KeepsSegments read path kind externalId
        (pathSegments (render path (pathValues externalId kind))) ↔
      ∀ tokens tail, Tokenized path.toList tokens tail →
        ∀ segment ∈ segmentTemplates kind tokens tail, .slot ∈ segment →
          IsSegment (fillSegment externalId segment) := by
  constructor
  · intro hkeeps tokens tail h segment hsegment hslot
    obtain ⟨hsegments, hone⟩ := hkeeps tokens tail h
    have hmem : fillSegment externalId segment ∈
        pathSegments (render path (pathValues externalId kind)) :=
      hsegments ▸ List.mem_map_of_mem hsegment
    obtain ⟨hpiece, hne⟩ := List.mem_filter.mp hmem
    exact ⟨splitChar_piece_free '/' _ _ hpiece, by simpa using hne,
      (hread _).mp (hone segment hsegment hslot)⟩
  · intro hslots tokens tail h
    exact ⟨pathSegments_render h (hslots tokens tail h), fun segment hsegment hslot =>
      (hread _).mpr (hslots tokens tail h segment hsegment hslot).dots⟩

end

/-! Requests. -/

/-- What a search puts into a body. -/
def searchValues (query : PrincipalSearchQuery) (kind : PrincipalKind) (offset limit : Nat)
    (placeholder : String) : Option String :=
  if placeholder = "search" then some (trim query.text)
  else if placeholder = "offset" then some offset.repr
  else if placeholder = "limit" then some limit.repr
  else if placeholder = "kind" then some (kindPlaceholderValue kind)
  else none

/-- What the read of one principal puts into a body. -/
def resolveValues (externalId placeholder : String) : Option String :=
  if placeholder = "external_id" then some externalId else none

namespace CustomPrincipalDiscovery

/-- The templates are accepted. -/
structure Accepted (isJson : String → Bool) (discovery : CustomPrincipalDiscovery) : Prop where
  path : validateRequestPath discovery.request.path = .ok ()
  body : validateBodyTemplate isJson discovery.request.bodyTemplate = .ok ()

/-- No request has another shape than its template. -/
structure KeepsRequests (discovery : CustomPrincipalDiscovery) (read : String → List String)
    (query : PrincipalSearchQuery) (externalId : String) (kind : PrincipalKind)
    (offset limit : Nat) : Prop where
  search : ∀ template, discovery.request.bodyTemplate = some template →
    ∃ body, (discovery.searchRequest query kind offset limit).body = some body ∧
      KeepsShape (searchValues query kind offset limit) template body
  resolve : ∀ template, discovery.request.bodyTemplate = some template →
    ∃ body, (discovery.resolveRequest externalId kind).body = some body ∧
      KeepsShape (resolveValues externalId) template body
  path : KeepsSegments read discovery.request.path kind externalId
    (discovery.resolveRequest externalId kind).segments

theorem resolveRequest_segments (discovery : CustomPrincipalDiscovery) (externalId : String)
    (kind : PrincipalKind) : (discovery.resolveRequest externalId kind).segments =
      pathSegments (render discovery.request.path (pathValues externalId kind)) := by
  have hvalues : (fun placeholder => if placeholder = "external_id" then some externalId
      else if placeholder = "kind" then some (kindPlaceholderValue kind) else none) =
      pathValues externalId kind := rfl
  rw [CustomPrincipalDiscovery.resolveRequest, hvalues]

section
variable {discovery : CustomPrincipalDiscovery} {template : String}
  (htemplate : discovery.request.bodyTemplate = some template)
include htemplate

theorem searchRequest_body (query : PrincipalSearchQuery) (kind : PrincipalKind)
    (offset limit : Nat) : (discovery.searchRequest query kind offset limit).body =
      some (render template (searchValues query kind offset limit)) :=
  congrArg (Option.map _) htemplate

theorem resolveRequest_body (externalId : String) (kind : PrincipalKind) :
    (discovery.resolveRequest externalId kind).body =
      some (render template (resolveValues externalId)) :=
  congrArg (Option.map _) htemplate

end

end CustomPrincipalDiscovery

theorem spellsItself_repr (n : Nat) : SpellsItself n.repr := by
  intro c hc
  rw [Nat.toList_repr] at hc
  have hdigit := Nat.isDigit_of_mem_toDigits (by decide) (by decide) hc
  have hbound : 0x20 ≤ c.toNat := by
    rw [Char.isDigit, Bool.and_eq_true, decide_eq_true_eq] at hdigit
    have hlow := UInt32.le_iff_toNat_le.mp hdigit.1
    exact le_trans (by decide) hlow
  have hne : c ≠ '"' ∧ c ≠ '\\' := by
    constructor <;> rintro rfl <;> cases hdigit
  rw [isPlain, Bool.and_eq_true, Bool.and_eq_true, decide_eq_true_eq, decide_eq_true_eq,
    decide_eq_true_eq]
  exact ⟨⟨hbound, hne.1⟩, hne.2⟩

theorem spellsItself_kind (kind : PrincipalKind) : SpellsItself (kindPlaceholderValue kind) :=
  List.all_eq_true.mp (by cases kind <;> decide)

/-- Besides the text of a search its values are numbers and the name of a kind. -/
theorem searchValues_cases {query : PrincipalSearchQuery} {kind : PrincipalKind}
    {offset limit : Nat} {name text : String}
    (h : searchValues query kind offset limit name = some text) :
    (name = "search" ∧ text = trim query.text) ∨ SpellsItself text := by
  rw [searchValues] at h
  split at h
  · rename_i hname
    cases h
    exact .inl ⟨hname, rfl⟩
  · split at h
    · cases h
      exact .inr (spellsItself_repr offset)
    · split at h
      · cases h
        exact .inr (spellsItself_repr limit)
      · split at h
        · cases h
          exact .inr (spellsItself_kind kind)
        · cases h

theorem resolveValues_some {externalId name text : String}
    (h : resolveValues externalId name = some text) : name = "external_id" ∧ text = externalId := by
  rw [resolveValues] at h
  split at h
  · rename_i hname
    cases h
    exact ⟨hname, rfl⟩
  · cases h

theorem SpellsItself.unescaped {text : String} (h : SpellsItself text) : '\\' ∉ text.toList :=
  fun hmem => absurd (h _ hmem) (by decide)

/-- A connector with one template for its path and one for its bodies. -/
def templateConnector (path : String) (bodyTemplate : Option String) : CustomPrincipalDiscovery where
  providerId := "people"
  issuer := "https://people.example"
  request := ⟨path, "q", "offset", "limit", "id", bodyTemplate⟩
  response := ⟨"", "id", "name", none, none⟩
  maxPageSize := 50
  maxPageSize_valid := PrincipalSearchQuery.pageSize_fifty

namespace CustomPrincipalDiscovery

/-- What the bodies have places for spells itself in a string, and the identifier makes one
segment of every segment of the path that it stands in. -/
structure Harmless (discovery : CustomPrincipalDiscovery) (query : PrincipalSearchQuery)
    (externalId : String) (kind : PrincipalKind) : Prop where
  search : ∀ template, discovery.request.bodyTemplate = some template →
    Places template "search" → SpellsItself (trim query.text)
  resolve : ∀ template, discovery.request.bodyTemplate = some template →
    Places template "external_id" → SpellsItself externalId
  path : ∀ tokens tail, Tokenized discovery.request.path.toList tokens tail →
    ∀ segment ∈ segmentTemplates kind tokens tail, .slot ∈ segment →
      IsSegment (fillSegment externalId segment)

/-- No backslash of a text stands before one of the template in the same string. -/
structure Unmixed (discovery : CustomPrincipalDiscovery) (query : PrincipalSearchQuery)
    (externalId : String) : Prop where
  search : ∀ template, discovery.request.bodyTemplate = some template →
    NoEscapeBehind template ∨ '\\' ∉ (trim query.text).toList
  resolve : ∀ template, discovery.request.bodyTemplate = some template →
    NoEscapeBehind template ∨ '\\' ∉ externalId.toList

end CustomPrincipalDiscovery

/-- The requests of a connector keep their shape where the texts that its templates have
places for are harmless there; and only there, as long as no backslash of a text meets an
escape of the template. -/
theorem requests_keep_shape_iff {read : String → List String}
    (hread : ∀ segment, (read segment).length = 1 ↔ ¬IsDots segment)
    (discovery : CustomPrincipalDiscovery) (query : PrincipalSearchQuery) (externalId : String)
    (kind : PrincipalKind) (offset limit : Nat) :
    (discovery.Harmless query externalId kind →
      discovery.KeepsRequests read query externalId kind offset limit) ∧
    (discovery.Unmixed query externalId →
      discovery.KeepsRequests read query externalId kind offset limit →
        discovery.Harmless query externalId kind) := by
  have hpath := @keepsSegments_iff externalId kind read hread discovery.request.path
  rw [← CustomPrincipalDiscovery.resolveRequest_segments] at hpath
  constructor
  · intro h
    refine ⟨fun template htemplate => ?_, fun template htemplate => ?_, hpath.mpr h.path⟩
    · refine ⟨_, CustomPrincipalDiscovery.searchRequest_body htemplate query kind offset limit,
        keepsShape_render fun name text hplaces hname => ?_⟩
      obtain ⟨rfl, rfl⟩ | hplain := searchValues_cases hname
      · exact h.search template htemplate hplaces
      · exact hplain
    · refine ⟨_, CustomPrincipalDiscovery.resolveRequest_body htemplate externalId kind,
        keepsShape_render fun name text hplaces hname => ?_⟩
      obtain ⟨rfl, rfl⟩ := resolveValues_some hname
      exact h.resolve template htemplate hplaces
  · intro hunmixed hkeeps
    refine ⟨fun template htemplate hplaces => ?_, fun template htemplate hplaces => ?_,
      hpath.mp hkeeps.path⟩
    · obtain ⟨body, hbody, hshape⟩ := hkeeps.search template htemplate
      rw [CustomPrincipalDiscovery.searchRequest_body htemplate, Option.some.injEq] at hbody
      rw [← hbody] at hshape
      have htext : searchValues query kind offset limit "search" = some (trim query.text) :=
        if_pos rfl
      refine spellsItself_of_keepsShape ?_ hshape hplaces htext
      refine (hunmixed.search template htemplate).imp_right fun hslash name text hname => ?_
      obtain ⟨-, rfl⟩ | hplain := searchValues_cases hname
      · exact hslash
      · exact hplain.unescaped
    · obtain ⟨body, hbody, hshape⟩ := hkeeps.resolve template htemplate
      rw [CustomPrincipalDiscovery.resolveRequest_body htemplate, Option.some.injEq] at hbody
      rw [← hbody] at hshape
      have hid : resolveValues externalId "external_id" = some externalId := if_pos rfl
      refine spellsItself_of_keepsShape ?_ hshape hplaces hid
      refine (hunmixed.resolve template htemplate).imp_right fun hslash name text hname => ?_
      exact (resolveValues_some hname).2 ▸ hslash

/-! Connectors whose path is the identifier. -/

namespace Restricted

def search (text : String) : PrincipalSearchQuery := ⟨text, ∅, .empty, 10, .empty⟩

/-- The URL library drops dot segments. -/
def read (segment : String) : List String := if IsDots segment then [] else [segment]

theorem read_one (segment : String) : (read segment).length = 1 ↔ ¬IsDots segment := by
  rw [read]
  split <;> simp_all

def isJson (text : String) : Bool := text ∈ [quotedPlaceholder "search"]

def discovery (bodyTemplate : Option String) : CustomPrincipalDiscovery :=
  templateConnector "\x7b\x7bexternal_id\x7d\x7d" bodyTemplate

theorem discovery_accepted :
    (discovery (some (quotedPlaceholder "search"))).Accepted isJson where
  path := by
    have hpath : validateRequestPath "\x7b\x7bexternal_id\x7d\x7d" = .ok () := by decide +kernel
    exact hpath
  body := by
    have hjson : isJson (quotedPlaceholder "search") = true := by decide
    simp only [discovery, templateConnector, validateBodyTemplate, hjson, if_true]

theorem path_segment {externalId : String} (h : IsSegment externalId) (tokens tail)
    (htokens : Tokenized "\x7b\x7bexternal_id\x7d\x7d".toList tokens tail) :
    ∀ segment ∈ segmentTemplates .user tokens tail, .slot ∈ segment →
      IsSegment (fillSegment externalId segment) := by
  have htoken : Tokenized "\x7b\x7bexternal_id\x7d\x7d".toList [([], "external_id".toList)] [] :=
    @tokenized_placeholder "external_id".toList (by decide)
  obtain ⟨rfl, rfl⟩ := htokens.unique htoken
  have hatoms : pathAtoms .user [([], "external_id".toList)] [] = [.slot] := by decide +kernel
  have htemplates : segmentTemplates .user [([], "external_id".toList)] [] = [[.slot]] := by
    rw [segmentTemplates, hatoms]
    decide
  have hfill : fillSegment externalId [.slot] = externalId := by
    simp [fillSegment, PathAtom.fill]
  rw [htemplates]
  intro segment hsegment _
  rw [List.mem_singleton.mp hsegment, hfill]
  exact h

/-- A name in a body that has a place for it, and any text where the body has none. -/
theorem name_keeps :
    (discovery (some (quotedPlaceholder "search"))).KeepsRequests read (search " Ada ") "7" .user
        0 10 ∧
      (discovery none).KeepsRequests read (search "x\"y") "o\"brien" .user 0 10 := by
  constructor
  · refine (requests_keep_shape_iff read_one _ (search " Ada ") "7" .user 0 10).1
      ⟨fun _ _ _ => ?_, fun _ _ _ => ?_, path_segment ⟨by decide, by decide, by decide⟩⟩
    · exact List.all_eq_true.mp (by decide +kernel)
    · exact List.all_eq_true.mp (by decide)
  · exact (requests_keep_shape_iff read_one _ (search "x\"y") "o\"brien" .user 0 10).1
      ⟨nofun, nofun, path_segment ⟨by decide, by decide, by decide⟩⟩

/-- A quotation mark ends the string it is put into. -/
theorem quote_breaks : (discovery (some (quotedPlaceholder "search"))).Accepted isJson ∧
    ¬(discovery (some (quotedPlaceholder "search"))).KeepsRequests read (search "\"") "7" .user
      0 10 := by
  refine ⟨discovery_accepted, fun hkeeps => ?_⟩
  obtain ⟨body, hbody, hshape⟩ := hkeeps.search _ rfl
  rw [CustomPrincipalDiscovery.searchRequest_body rfl, Option.some.injEq] at hbody
  rw [← hbody] at hshape
  have hplaces : Places (quotedPlaceholder "search") (trim "search") :=
    quotedPlaceholder_places (by decide) (List.all_eq_true.mp (by decide))
  have hvalue : searchValues (search "\"") .user 0 10 (trim "search") = some "\"" := by
    decide +kernel
  have hslash : ∀ name text, searchValues (search "\"") .user 0 10 name = some text →
      '\\' ∉ text.toList := by
    intro name text hname
    obtain ⟨-, rfl⟩ | hplain := searchValues_cases hname
    · decide +kernel
    · exact hplain.unescaped
  have hspells := spellsItself_of_keepsShape (.inr hslash) hshape hplaces hvalue
  exact absurd (hspells '"' (by decide)) (by decide)

/-- A text can end the member it is put into and begin another. -/
example : render "\x7b\"q\":\"\x7b\x7bsearch\x7d\x7d\",\"scope\":\"public\"\x7d"
    (searchValues (search "x\",\"scope\":\"all") .user 0 10) =
    "\x7b\"q\":\"x\",\"scope\":\"all\",\"scope\":\"public\"\x7d" := by
  decide +kernel

end Restricted

end Authguard
