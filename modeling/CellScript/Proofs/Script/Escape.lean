import Mathlib
import CellScript.Proofs.Script.Store

/-! Backslashes between double quotes. A text in quotes is one lexeme if each of its backslashes has
something to escape, and it stands for itself unless all of its escapes are known. -/
namespace CellScript.Script

/-- Whether every backslash has a rune behind it that it can escape, which is no line feed. -/
def complete : List Rune → Bool
  | [] => true
  | r::rest =>
    if r.isAscii '\\' then
      match rest with
      | [] => false
      | s::rest => !s.isAscii '\n' && complete rest
    else complete rest

/-- A text without the quote is not cut short if each of its backslashes has something to escape. -/
lemma enclosed_iff_complete {q : Rune} {rs : List Rune} (hrs : q ∉ rs) :
    Enclosed (.char '\\') q (· ≠ .char '\n') rs ↔ complete rs = true := by
  fun_induction complete rs with
  | case1 => exact iff_of_true .nil rfl
  | case2 r hr =>
    obtain rfl := Rune.isAscii_iff.mp hr
    exact iff_of_false Enclosed.not_slash (by simp)
  | case3 r hr s rs ih =>
    obtain rfl := Rune.isAscii_iff.mp hr
    simp only [List.mem_cons,not_or] at hrs
    rw [Enclosed.escape_iff,ih hrs.2.2]
    simp [← Rune.isAscii_iff]
  | case4 r rs hr ih =>
    simp only [List.mem_cons,not_or] at hrs
    rw [Enclosed.plain_iff (by simpa using hr),ih hrs.2]
    exact and_iff_right (Ne.symm hrs.1)

/-- Where the quote behind a text is escaped, or a line feed in it is, nothing else ends a literal. -/
lemma stringRest?_incomplete {q : Rune} (hq : q ≠ .char '\\') {rs rest : List Rune} (hrs : q ∉ rs)
    (hrest : q ∉ rest) (hc : complete rs = false) : stringRest? q (rs ++ q::rest) = none := by
  rw [Option.eq_none_iff_forall_ne_some]
  intro n hn
  obtain ⟨body,more,hsplit,hb,-⟩ := (stringRest?_eq_some_iff hq).mp hn
  have hbody := ((List.append_cons_inj_of_notMem hrs hrest).mp hsplit).1
  rw [← hbody,enclosed_iff_complete hrs,hc] at hb
  exact Bool.false_ne_true hb

lemma fits_of_complete {n : Text} (hn : Text.ascii '"' ∉ n) (hc : complete n.runes = true) :
    Fits .string (quoteWith (Text.ascii '"') n).runes := by
  have hruns := (enclosed_iff_complete (Text.not_mem_runes (by decide) hn)).mpr hc
  exact fits_quoteWith (by decide) ((enclosed_runes (by decide)).mp hruns)

/-- Nothing else starts with a quote. -/
lemma nextLexeme?_quote {rs : List Rune} (h : stringRest? (.char '"') rs = none) :
    nextLexeme? (.char '"'::rs) = none := by
  have hfloat := floatLength?_of_head (r := .char '"') (by decide) (by decide) rs
  have hint := intLength?_of_head (r := .char '"') (by decide) rs
  have hname := not_startsName_of_mark '"' (by decide)
  simp [nextLexeme?,hfloat,hint,stringLength?,h,nameLength?,hname,operatorLength?,longOperators,
    shortOperators,punctuationLength?,punctuationMarks,Rune.isAscii]

/-- A text in double quotes in front of a bracket. -/
theorem shapes?_quoteWith {n : Text} (hn : Text.ascii '"' ∉ n) :
    shapes? (quoteWith (Text.ascii '"') n ++ Text.ofString "]") =
      if complete n.runes then
        some [⟨.string,quoteWith (Text.ascii '"') n⟩,⟨.punctuation,Text.ofString "]"⟩]
      else none := by
  have hbracket : (Text.ofString "]").runes = [.char ']'] := by decide +kernel
  cases hc : complete n.runes with
  | true =>
    have hclosing : Laid [⟨.punctuation,Text.ofString "]"⟩] (Text.ofString "]") := by
      refine laid_single (l := ⟨.punctuation,Text.ofString "]"⟩) ?_
      exact ⟨']',by decide,hbracket⟩
    have hlaid := Laid.cons_touching (l := ⟨.string,quoteWith (Text.ascii '"') n⟩)
      (fits_of_complete hn hc) (fun _ _ => trivial) hclosing
    rw [if_pos rfl]
    exact hlaid.shapes?
  | false =>
    have hend : stringRest? (.char '"') (n.runes ++ [.char '"',.char ']']) = none :=
      stringRest?_incomplete (by decide) (Text.not_mem_runes (by decide) hn) (by decide) hc
    have hruns : (quoteWith (Text.ascii '"') n ++ Text.ofString "]").runes =
        .char '"'::(n.runes ++ [.char '"',.char ']']) := by
      rw [runes_quoteWith_append (by decide),runes_quoteWith (by decide),hbracket]
      simp
    rw [shapes?_eq,hruns,shapesOf_none (by decide) (nextLexeme?_quote hend),
      if_neg (by simp)]

lemma lt_of_hexValue? {b : UInt8} {n : ℕ} (h : Text.hexValue? b = some n) : b.toNat < 0x80 := by
  have hall : ∀ b : UInt8, (Text.hexValue? b).isSome = true → b.toNat < 0x80 := by
    decide +kernel
  exact hall b (by rw [h]; rfl)

/-- What is read of a text: some ASCII bytes at its front, at least so many. -/
def Consumes (least : ℕ) (t rest : Text) : Prop :=
  ∃ w, t = w ++ rest ∧ least ≤ w.length ∧ ∀ b ∈ w, b.toNat < 0x80

lemma Consumes.cons {least : ℕ} {t rest : Text} (h : Consumes least t rest) {b : UInt8}
    (hb : b.toNat < 0x80) : Consumes (least+1) (b::t) rest := by
  obtain ⟨w,rfl,hlen,hw⟩ := h
  refine ⟨b::w,rfl,by simpa using hlen,?_⟩
  intro c hc
  rcases List.mem_cons.mp hc with rfl | hc
  · exact hb
  · exact hw c hc

lemma Consumes.mono {least less : ℕ} {t rest : Text} (h : Consumes least t rest)
    (hle : less ≤ least) : Consumes less t rest := by
  obtain ⟨w,ht,hlen,hw⟩ := h
  exact ⟨w,ht,hle.trans hlen,hw⟩

lemma consumes_nil (t : Text) : Consumes 0 t t := ⟨[],rfl,by simp,by simp⟩

lemma consumes_readDigits? {base count soFar n : ℕ} {t rest : Text}
    (h : Text.readDigits? base count t soFar = some (n,rest)) : Consumes count t rest := by
  induction count generalizing t soFar with
  | zero =>
    simp only [Text.readDigits?,Option.some.injEq,Prod.mk.injEq] at h
    rw [h.2]
    exact consumes_nil rest
  | succ count ih =>
    cases t with
    | nil => simp [Text.readDigits?] at h
    | cons b t =>
      rw [Text.readDigits?] at h
      split at h
      · rename_i d hd
        split at h
        · exact (ih h).cons (lt_of_hexValue? hd)
        · simp at h
      · simp at h

lemma length_encodeCode? {n : ℕ} {t : Text} (h : Text.encodeCode? n = some t) : t.length ≤ 4 := by
  rw [Text.encodeCode?] at h
  split at h
  · rw [← Option.some.inj h,String.length_utf8EncodeChar]
    exact Char.utf8Size_le_four _
  · simp at h

/-- A letter and the digits of a code point are as many bytes as its character, or more. -/
lemma consumes_code {count n : ℕ} {b : UInt8} {t code rest : Text} (hcount : 3 ≤ count)
    (hb : b.toNat < 0x80) (hdigits : Text.readDigits? 16 count t 0 = some (n,rest))
    (hcode : Text.encodeCode? n = some code) : Consumes code.length (b::t) rest := by
  have hlen := length_encodeCode? hcode
  exact ((consumes_readDigits? hdigits).cons hb).mono (by omega)

/-- An escape is written with as many ASCII bytes behind its backslash as it stands for, or more. -/
lemma consumes_readEscape? {q : UInt8} (hq : q.toNat < 0x80) {t bytes rest : Text}
    (h : Text.readEscape? q t = some (bytes,rest)) : Consumes bytes.length t rest := by
  cases t with
  | nil => simp [Text.readEscape?] at h
  | cons b t =>
    have hbyte : ∀ c : Char, (Text.ascii c).toNat < 0x80 → (b == Text.ascii c) = true →
        b.toNat < 0x80 := by
      intro c hc hb
      rwa [beq_iff_eq.mp hb]
    -- a letter, a backslash or a quote for one byte
    have hone : ∀ x : UInt8, b.toNat < 0x80 → some ([x],t) = some (bytes,rest) →
        Consumes bytes.length (b::t) rest := by
      intro x hb hx
      obtain ⟨rfl,rfl⟩ := Prod.mk.inj (Option.some.inj hx)
      exact (consumes_nil t).cons hb
    have hor : ∀ {p : Bool} {x y : Option (Text × Text)} {P : Prop},
        (p = true → x = some (bytes,rest) → P) → (y = some (bytes,rest) → P) →
          (if p then x else y) = some (bytes,rest) → P := by
      intro p x y P hx hy
      cases p with
      | true => exact hx rfl
      | false => exact hy
    revert h
    rw [Text.readEscape?]
    iterate 7 refine hor (fun hb => hone _ (hbyte _ (by decide) hb)) ?_
    refine hor (fun hb => hone b ?_) (hor (fun hb hx => ?_) (hor (fun hb hx => ?_)
      (hor (fun hb hx => ?_) fun hx => ?_)))
    · rcases Bool.or_eq_true_iff.mp hb with hb | hb
      · exact hbyte _ (by decide) hb
      · rwa [beq_iff_eq.mp hb]
    · obtain ⟨⟨n,more⟩,hdigits,hx⟩ := Option.bind_eq_some_iff.mp hx
      obtain ⟨rfl,rfl⟩ := Prod.mk.inj (Option.some.inj hx)
      exact ((consumes_readDigits? hdigits).cons (hbyte _ (by decide) hb)).mono (by simp)
    · obtain ⟨⟨n,more⟩,hdigits,hx⟩ := Option.bind_eq_some_iff.mp hx
      obtain ⟨code,hcode,hx⟩ := Option.bind_eq_some_iff.mp hx
      obtain ⟨rfl,rfl⟩ := Prod.mk.inj (Option.some.inj hx)
      exact consumes_code (by omega) (hbyte _ (by decide) hb) hdigits hcode
    · obtain ⟨⟨n,more⟩,hdigits,hx⟩ := Option.bind_eq_some_iff.mp hx
      obtain ⟨code,hcode,hx⟩ := Option.bind_eq_some_iff.mp hx
      obtain ⟨rfl,rfl⟩ := Prod.mk.inj (Option.some.inj hx)
      exact consumes_code (by omega) (hbyte _ (by decide) hb) hdigits hcode
    · obtain ⟨⟨n,more⟩,hdigits,hx⟩ := Option.bind_eq_some_iff.mp hx
      simp only [Option.ite_none_right_eq_some,Option.some.injEq,Prod.mk.injEq] at hx
      obtain ⟨-,rfl,rfl⟩ := hx
      exact (consumes_readDigits? hdigits).mono (by simp)

/-- Bytes that are read as ASCII leave well-formed text behind. -/
lemma Consumes.isUtf8 {least : ℕ} {t rest : Text} (h : Consumes least t rest)
    (ht : t.isUtf8 = true) : rest.isUtf8 = true := by
  obtain ⟨w,rfl,-,hw⟩ := h
  induction w with
  | nil => exact ht
  | cons b w ih =>
    rw [List.cons_append,Text.isUtf8,Text.runes_cons_of_lt (hw b (by simp)),List.all_cons,
      Bool.and_eq_true] at ht
    exact ih ht.2 fun c hc => hw c (by simp [hc])

lemma not_mem_bytes_first {b : UInt8} (hb : b ≠ Text.ascii '\\') (t : Text) :
    Text.ascii '\\' ∉ (Rune.first b t).bytes := by
  rcases Nat.lt_or_ge b.toNat 0x80 with hlt | hge
  · have hc := Rune.toNat_ofNat hlt
    rw [Rune.first_of_lt hlt,Rune.bytes_of_lt (by rwa [hc]),hc,UInt8.ofNat_toNat]
    simpa using hb.symm
  · intro hm
    exact Text.ne_ascii_of_le ((Rune.le_of_mem_first hge t).1 _ hm) (by decide) rfl

/-- The text that a body stands for is no longer than the body, and shorter if there is a
backslash. -/
lemma length_unescapeSteps? {q : UInt8} (hq : q.toNat < 0x80) {fuel : ℕ} {n m : Text}
    (hu : n.isUtf8 = true) (h : Text.unescapeSteps? q fuel n = some m) :
    m.length ≤ n.length ∧ (Text.ascii '\\' ∈ n → m.length < n.length) := by
  induction fuel generalizing n m with
  | zero =>
    cases n with
    | nil =>
      obtain rfl : [] = m := Option.some.inj h
      simp
    | cons b n => simp [Text.unescapeSteps?] at h
  | succ fuel ih =>
    cases n with
    | nil =>
      obtain rfl : [] = m := Option.some.inj h
      simp
    | cons b n =>
      rw [Text.unescapeSteps?] at h
      split at h
      · simp at h
      · split at h
        · rename_i hslash
          -- the backslash is one byte more than the escape stands for
          rw [beq_iff_eq.mp hslash,Text.isUtf8,Text.runes_ascii (by decide),List.all_cons,
            Bool.and_eq_true] at hu
          obtain ⟨⟨bytes,rest⟩,hread,hx⟩ := Option.bind_eq_some_iff.mp h
          obtain ⟨more,hmore,hx⟩ := Option.bind_eq_some_iff.mp hx
          obtain rfl := Option.some.inj hx
          have hconsumes := consumes_readEscape? hq hread
          have hle := (ih (hconsumes.isUtf8 hu.2) hmore).1
          obtain ⟨w,rfl,hlen,-⟩ := hconsumes
          simp only [List.length_append,List.length_cons]
          omega
        · rename_i hslash
          obtain ⟨more,hmore,rfl⟩ := Option.map_eq_some_iff.mp h
          obtain ⟨rest,hrest,hruns⟩ := Text.runes_cons_exists b n
          rw [Text.isUtf8,hruns,List.all_cons,Bool.and_eq_true] at hu
          rw [hrest,List.drop_left] at hmore
          obtain ⟨hle,hlt⟩ := ih hu.2 hmore
          have hlen : (String.utf8EncodeChar (Rune.first b n).toChar).length =
              (Rune.first b n).bytes.length := by
            cases hr : Rune.first b n with
            | char c => rfl
            | stray x => simp [hr] at hu
          rw [hrest,List.length_append,List.length_append,hlen]
          refine ⟨by omega,fun hm => ?_⟩
          have hmem : Text.ascii '\\' ∈ rest := by
            exact (List.mem_append.mp hm).resolve_left
              (not_mem_bytes_first (fun hb => hslash (beq_iff_eq.mpr hb)) n)
          have hless := hlt hmem
          omega

/-- The text in double quotes stands for what its escapes are decoded to, or for itself. -/
lemma decodeLiteral_double (n : Text) : decodeLiteral (quoteWith (Text.ascii '"') n) =
    (Text.unescape? (Text.ascii '"') n).getD n := by
  simp [decodeLiteral,quoteWith,literalBody,decodeDouble]

/-- A text in double quotes stands for itself, unless it has a backslash and its escapes are known. -/
theorem decodeLiteral_double_eq_iff {n : Text} (hu : n.isUtf8 = true) :
    decodeLiteral (quoteWith (Text.ascii '"') n) = n ↔
      (Text.ascii '\\' ∈ n → Text.unescape? (Text.ascii '"') n = none) := by
  constructor
  · intro hself hslash
    rw [decodeLiteral_double] at hself
    cases h : Text.unescape? (Text.ascii '"') n with
    | none => rfl
    | some m =>
      have hshorter := (length_unescapeSteps? (by decide) hu h).2 hslash
      rw [h,Option.getD_some] at hself
      rw [hself] at hshorter
      exact absurd hshorter (lt_irrefl _)
  · intro hnone
    by_cases hslash : Text.ascii '\\' ∈ n
    · rw [decodeLiteral_double,hnone hslash,Option.getD_none]
    · exact decodeLiteral_quoteWith _ hu hslash

end CellScript.Script
