import HeadDriven.Proofs.Outcome
import HeadDriven.Sentence
import Mathlib.Data.List.TakeWhile

/-! Reading raw words. A raw word is cut at its last slash into text and tag, or is text as a
whole. Its token shows this text again, stands for one symbol that the text alone decides, and
carries the symbol of its tag. -/
namespace HeadDriven

namespace SymbolTable

variable {t : SymbolTable} {s : Symbol} {name : String}

theorem name?_of_get? (h : t.get? name = some s) : t.name? s = some name := get?_iff_name?.mp h

theorem name_of_get? (h : t.get? name = some s) : t.name s = .ok name := by
  rw [SymbolTable.name, name?_of_get? h]

end SymbolTable

def Token.shown (symbols : SymbolTable) : Token → Except Fault String
  | .known word _ => symbols.name word
  | .unknown text _ _ => .ok text

namespace Sentence

/-- A raw word with its text and its tag. There is a tag if there is text on both sides of the
last slash. -/
inductive Cut : (raw text : List Char) → (tag : Option (List Char)) → Prop where
  | tagged {text tag : List Char} (text_ne : text ≠ []) (tag_ne : tag ≠ []) (last : '/' ∉ tag) :
      Cut (text ++ '/' :: tag) text (some tag)
  | bare {raw : List Char}
      (whole : ∀ text tag, raw = text ++ '/' :: tag → '/' ∉ tag → text = [] ∨ tag = []) :
      Cut raw raw none

theorem splitTag_of_not_mem {raw : List Char} (h : '/' ∉ raw) : splitTag raw = (raw, none) := by
  have none : raw.reverse.dropWhile (· ≠ '/') = [] := by
    rw [List.dropWhile_eq_nil_iff]
    intro c hc
    have : c ≠ '/' := fun hslash => h (hslash ▸ List.mem_reverse.mp hc)
    simpa using this
  simp only [splitTag, none]

/-- A word with a slash is cut at the last one, unless nothing stands on one side of it. -/
theorem splitTag_append (text : List Char) {tag : List Char} (last : '/' ∉ tag) :
    splitTag (text ++ '/' :: tag) =
      if text = [] ∨ tag = [] then (text ++ '/' :: tag, none) else (text, some tag) := by
  have plain : ∀ c ∈ tag.reverse, (fun c : Char => decide (c ≠ '/')) c = true := by
    intro c hc
    have : c ≠ '/' := fun hslash => last (hslash ▸ List.mem_reverse.mp hc)
    simpa using this
  have hreverse : (text ++ '/' :: tag).reverse = tag.reverse ++ '/' :: text.reverse := by simp
  -- The last slash of the text is the first one of its reverse.
  have front : (text ++ '/' :: tag).reverse.dropWhile (· ≠ '/') = '/' :: text.reverse := by
    rw [hreverse, List.dropWhile_append_of_pos plain]
    simp
  have back : ((text ++ '/' :: tag).reverse.takeWhile (· ≠ '/')).reverse = tag := by
    rw [hreverse, List.takeWhile_append_of_pos plain]
    simp
  unfold splitTag
  rw [front, back]
  cases hreversed : text.reverse with
  | nil => simp [List.reverse_eq_nil_iff.mp hreversed]
  | cons c rest =>
    have hne : text ≠ [] := by
      rintro rfl
      cases hreversed
    have htext : (c :: rest).reverse = text := by rw [← hreversed, List.reverse_reverse]
    simp only [hne, false_or, htext, List.isEmpty_iff]

theorem splitTag_cuts (raw : List Char) : Cut raw (splitTag raw).1 (splitTag raw).2 := by
  by_cases slash : '/' ∈ raw
  · obtain ⟨back, front, hraw, hback⟩ := List.eq_append_cons_of_mem (List.mem_reverse.mpr slash)
    have hcut : raw = front.reverse ++ '/' :: back.reverse := by
      rw [← List.reverse_reverse raw, hraw]
      simp
    have last : '/' ∉ back.reverse := by rwa [List.mem_reverse]
    have split := splitTag_append front.reverse last
    rw [← hcut] at split
    by_cases one : front.reverse = [] ∨ back.reverse = []
    · rw [if_pos one] at split
      rw [split]
      refine .bare fun text tag heq hlast => ?_
      have other := splitTag_append text hlast
      rw [← heq, split] at other
      by_contra two
      rw [if_neg two] at other
      cases other
    · rw [if_neg one] at split
      rw [split, hcut]
      rw [not_or] at one
      exact .tagged one.1 one.2 last
  · rw [splitTag_of_not_mem slash]
    refine .bare fun text tag heq _ => absurd ?_ slash
    rw [heq]
    simp

theorem cut_iff {raw text : List Char} {tag : Option (List Char)} :
    Cut raw text tag ↔ splitTag raw = (text, tag) := by
  constructor
  · intro h
    cases h with
    | tagged text_ne tag_ne last =>
      rw [splitTag_append _ last, if_neg (by rintro (h | h) <;> contradiction)]
    | bare whole =>
      generalize hcut : splitTag raw = cut
      have cuts := splitTag_cuts raw
      rw [hcut] at cuts
      obtain ⟨text, tag⟩ := cut
      cases cuts with
      | tagged text_ne tag_ne last =>
        exact absurd (whole _ _ rfl last) (by rintro (h | h) <;> contradiction)
      | bare => rfl
  · intro h
    have cuts := splitTag_cuts raw
    rwa [h] at cuts

example : splitTag ['1', '/', '2', '/', 'C', 'D'] = (['1', '/', '2'], some ['C', 'D']) := by decide

variable {symbols : SymbolTable} {language : Language} {token : Token} {raw : String}

/-- The symbol of a text: its own, else that of its class, else that of all unknown words. -/
def symbolOf (symbols : SymbolTable) (language : Language) (text : String) : Symbol :=
  (symbols.get? text).getD ((symbols.get? (language.wordClass text)).getD Symbol.unknown)

/-- What a token keeps of the text and the tag of its raw word. -/
structure Reads (symbols : SymbolTable) (language : Language) (token : Token)
    (text : List Char) (tag : Option (List Char)) : Prop where
  word : token.word = symbolOf symbols language (String.ofList text)
  shown : token.shown symbols = .ok (String.ofList text)
  tags : List.Forall₂ (fun tag s => symbols.name s = .ok (String.ofList tag)) tag.toList token.tags

theorem reads_of_word {text : List Char} {tag : Option (List Char)} {tags : List Symbol}
    (htags : List.Forall₂ (fun tag s => symbols.name s = .ok (String.ofList tag)) tag.toList tags)
    (h : (match symbols.get? (String.ofList text) with
      | some s => Except.ok (.known s tags)
      | none => .ok (.unknown (String.ofList text)
          ((symbols.get? (language.wordClass (String.ofList text))).getD Symbol.unknown) tags) :
        Except Error Token) = .ok token) : Reads symbols language token text tag := by
  cases hget : symbols.get? (String.ofList text) with
  | some s =>
    rw [hget] at h
    cases h
    exact ⟨by simp [symbolOf, hget, Token.word], SymbolTable.name_of_get? hget, htags⟩
  | none =>
    rw [hget] at h
    cases h
    exact ⟨by simp [symbolOf, hget, Token.word], rfl, htags⟩

theorem reads_of_tokenOf (h : tokenOf symbols language raw = .ok token) :
    ∃ text tag, Cut raw.toList text tag ∧ Reads symbols language token text tag := by
  rcases hcut : splitTag raw.toList with ⟨text, tag⟩
  refine ⟨text, tag, cut_iff.mpr hcut, ?_⟩
  simp only [tokenOf, hcut] at h
  split at h
  · cases h
  · cases tag with
    | none => exact reads_of_word .nil h
    | some tag =>
      dsimp only at h
      split at h
      · rename_i s hs
        exact reads_of_word (.cons (SymbolTable.name_of_get? hs) .nil) h
      · cases h

end Sentence

end HeadDriven
