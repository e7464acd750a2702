import Mathlib
import CellScript.Text.Rune

/-! The runes of a text lose nothing and are found piece by piece: a text that starts with no
continuation byte is cut off cleanly from what stands before it. -/
namespace CellScript

namespace Rune

lemma payload?_eq_some {b : UInt8} {n : ℕ} (h : payload? b = some n) :
    0x80 ≤ b.toNat ∧ b.toNat < 0xC0 ∧ n = b.toNat-0x80 := by
  unfold payload? at h
  split at h
  case isTrue hb =>
    simp only [Bool.and_eq_true,decide_eq_true_eq,UInt8.le_iff_toNat_le,UInt8.lt_iff_toNat_lt] at hb
    simp only [Option.some.injEq] at h
    exact ⟨hb.1,hb.2,h.symm⟩
  case isFalse => simp at h

lemma scalar?_eq_some {least code : ℕ} {c : Char} (h : scalar? least code = some c) :
    least ≤ code ∧ c.val.toNat = code := by
  unfold scalar? at h
  split at h
  case isTrue hc =>
    simp only [Option.some.injEq] at h
    subst h
    exact ⟨hc.1,by simp [Char.ofNatAux]⟩
  case isFalse => simp at h

lemma ofNat_eq {b : UInt8} {n : ℕ} (h : n = b.toNat) : UInt8.ofNat n = b := by
  subst h
  exact UInt8.ofNat_toNat

/-- The character of an ASCII byte is its code point. -/
lemma toNat_ofNat {b : UInt8} (h : b.toNat < 0x80) : (Char.ofNat b.toNat).toNat = b.toNat := by
  rw [Char.toNat_ofNat,if_pos (Or.inl (by omega))]

/-- A decoded character was read from its own encoding. -/
lemma encode_of_decode? {b : UInt8} {rest : Text} {c : Char} (h : decode? b rest = some c) :
    ∃ more, b::rest = String.utf8EncodeChar c ++ more := by
  unfold decode? at h
  simp only [UInt8.lt_iff_toNat_lt] at h
  split_ifs at h with h1 h2 h3 h4 h5
  · simp only [Option.some.injEq] at h
    subst h
    have hb : b.toNat < 128 := h1
    have hv : (Char.ofNat b.toNat).val.toNat = b.toNat := toNat_ofNat hb
    refine ⟨rest,?_⟩
    simp only [String.utf8EncodeChar,hv]
    rw [if_pos (by omega),ofNat_eq rfl]
    rfl
  · cases rest with
    | nil => simp at h
    | cons x rest =>
      simp only [Option.bind_eq_bind,Option.bind_eq_some_iff] at h
      obtain ⟨p,hp,hc⟩ := h
      obtain ⟨hx,hx',hp⟩ := payload?_eq_some hp
      obtain ⟨hl,hv⟩ := scalar?_eq_some hc
      have hb : ¬ b.toNat < 192 := h2
      have hb' : b.toNat < 224 := h3
      refine ⟨rest,?_⟩
      simp only [String.utf8EncodeChar,hv]
      rw [if_neg (by omega),if_pos (by omega)]
      rw [ofNat_eq (b := b) (by omega),ofNat_eq (b := x) (by omega)]
      rfl
  · match rest with
    | [] | [_] => simp at h
    | x::y::rest =>
      simp only [Option.bind_eq_bind,Option.bind_eq_some_iff] at h
      obtain ⟨p,hp,q,hq,hc⟩ := h
      obtain ⟨hx,hx',hp⟩ := payload?_eq_some hp
      obtain ⟨hy,hy',hq⟩ := payload?_eq_some hq
      obtain ⟨hl,hv⟩ := scalar?_eq_some hc
      have hb : ¬ b.toNat < 224 := h3
      have hb' : b.toNat < 240 := h4
      refine ⟨rest,?_⟩
      simp only [String.utf8EncodeChar,hv]
      rw [if_neg (by omega),if_neg (by omega),if_pos (by omega)]
      rw [ofNat_eq (b := b) (by omega),ofNat_eq (b := x) (by omega),ofNat_eq (b := y) (by omega)]
      rfl
  · match rest with
    | [] | [_] | [_,_] => simp at h
    | x::y::z::rest =>
      simp only [Option.bind_eq_bind,Option.bind_eq_some_iff] at h
      obtain ⟨p,hp,q,hq,r,hr,hc⟩ := h
      obtain ⟨hx,hx',hp⟩ := payload?_eq_some hp
      obtain ⟨hy,hy',hq⟩ := payload?_eq_some hq
      obtain ⟨hz,hz',hr⟩ := payload?_eq_some hr
      obtain ⟨hl,hv⟩ := scalar?_eq_some hc
      have hb : ¬ b.toNat < 240 := h4
      have hb' : b.toNat < 248 := h5
      refine ⟨rest,?_⟩
      simp only [String.utf8EncodeChar,hv]
      rw [if_neg (by omega),if_neg (by omega),if_neg (by omega)]
      rw [ofNat_eq (b := b) (by omega),ofNat_eq (b := x) (by omega),
        ofNat_eq (b := y) (by omega),ofNat_eq (b := z) (by omega)]
      rfl

lemma bytes_ne_nil (r : Rune) : r.bytes ≠ [] := by
  cases r with
  | char c => exact String.utf8EncodeChar_ne_nil
  | stray b => simp [bytes]

lemma bytes_first (b : UInt8) (rest : Text) : ∃ more, b::rest = (first b rest).bytes ++ more := by
  unfold first
  split
  case h_1 c h => exact encode_of_decode? h
  case h_2 => exact ⟨rest,rfl⟩

/-- Bytes that go on no encoding do not change how the bytes before them are decoded. -/
lemma first_append (x : UInt8) (a : Text) {b : Text} (h : ∀ y ∈ b.head?, payload? y = none) :
    first x (a ++ b) = first x a := by
  have hd : decode? x (a ++ b) = decode? x a := by
    unfold decode?
    split_ifs with h1 h2 h3 h4 h5
    · rfl
    · rfl
    · match a,b with
      | [],[] | _::_,_ => rfl
      | [],y::b => simp [h y rfl]
    · match a,b with
      | [],[] | _::_::_,_ => rfl
      | [],[y] => rfl
      | [],y::_::_ => simp [h y rfl]
      | [p],[] => rfl
      | [p],y::b => simp [h y rfl]
    · match a,b with
      | [],[] | [],[_] | [],[_,_] | _::_::_::_,_ => rfl
      | [],y::_::_::_ => simp [h y rfl]
      | [p],[] | [p],[_] => rfl
      | [p],y::_::_ => simp [h y rfl]
      | [p,q],[] => rfl
      | [p,q],y::b => simp [h y rfl]
    · rfl
  unfold first
  rw [hd]

lemma payload?_of_lt {b : UInt8} (h : b.toNat < 0x80) : payload? b = none := by
  cases hb : payload? b with
  | none => rfl
  | some n =>
    have hn := (payload?_eq_some hb).1
    omega

lemma first_of_lt {b : UInt8} (h : b.toNat < 0x80) (rest : Text) :
    first b rest = char (Char.ofNat b.toNat) := by
  have hb : b < 0x80 := by
    rw [UInt8.lt_iff_toNat_lt]
    exact h
  simp [first,decode?,hb]

/-- An ASCII character is one byte. -/
lemma bytes_of_lt {c : Char} (h : c.toNat < 0x80) : (char c).bytes = [UInt8.ofNat c.toNat] := by
  have hc : c.val.toNat ≤ 127 := Nat.le_of_lt_succ h
  simp only [bytes,String.utf8EncodeChar]
  rw [if_pos hc]
  rfl

/-- No byte of another character is ASCII. -/
lemma le_of_mem_bytes {c : Char} (h : 0x80 ≤ c.toNat) {b : UInt8} (hb : b ∈ (char c).bytes) :
    0x80 ≤ b.toNat := by
  have hc : 128 ≤ c.val.toNat := h
  have hv : c.val.toNat < 0x110000 := by
    rcases c.valid with hv | hv <;> omega
  simp only [bytes,String.utf8EncodeChar] at hb
  split_ifs at hb with h1 h2 h3 <;> simp only [List.mem_cons,List.not_mem_nil,or_false] at hb
  · omega
  · rcases hb with rfl | rfl <;> simp only [UInt8.toNat_ofNat'] <;> omega
  · rcases hb with rfl | rfl | rfl <;> simp only [UInt8.toNat_ofNat'] <;> omega
  · rcases hb with rfl | rfl | rfl | rfl <;> simp only [UInt8.toNat_ofNat'] <;> omega

/-- Of a rune that starts outside ASCII no byte is ASCII. -/
lemma le_of_mem_first {b : UInt8} (hb : 0x80 ≤ b.toNat) (t : Text) :
    (∀ x ∈ (first b t).bytes, 0x80 ≤ x.toNat) ∧
      ∀ c : Char, c.toNat < 0x80 → first b t ≠ .char c := by
  obtain ⟨more,hm⟩ := bytes_first b t
  cases hf : first b t with
  | stray x =>
    rw [hf] at hm
    simp only [bytes,List.cons_append,List.nil_append,List.cons.injEq] at hm
    refine ⟨?_,by simp⟩
    simpa [bytes,← hm.1] using hb
  | char c =>
    have hc : 0x80 ≤ c.toNat := by
      by_contra hlt
      rw [hf,bytes_of_lt (by omega)] at hm
      simp only [List.cons_append,List.nil_append,List.cons.injEq] at hm
      have hn := congrArg UInt8.toNat hm.1
      have hc : (UInt8.ofNat c.toNat).toNat = c.toNat := Nat.mod_eq_of_lt (by omega)
      omega
    refine ⟨fun x hx => le_of_mem_bytes hc hx,?_⟩
    rintro d hd hcd
    rw [char.injEq] at hcd
    subst hcd
    omega

end Rune

namespace Text

@[simp] lemma runes_nil : runes [] = [] := rfl

lemma runesFrom_eq_runes_drop (n : ℕ) (t : Text) : runesFrom n t = runes (t.drop n) := by
  induction t generalizing n with
  | nil => cases n <;> rfl
  | cons b t ih =>
    cases n with
    | zero => rfl
    | succ n => exact ih n

lemma runes_cons (b : UInt8) (t : Text) :
    runes (b::t) = Rune.first b t :: runes ((b::t).drop (Rune.first b t).bytes.length) := by
  have hn := List.length_pos_of_ne_nil (Rune.bytes_ne_nil (Rune.first b t))
  obtain ⟨n,hn⟩ := Nat.exists_eq_succ_of_ne_zero hn.ne'
  have hr : runes (b::t) = Rune.first b t :: runesFrom ((Rune.first b t).bytes.length-1) t := rfl
  rw [hr,runesFrom_eq_runes_drop,hn]
  rfl

lemma runes_cons_of_lt {b : UInt8} (h : b.toNat < 0x80) (t : Text) :
    runes (b::t) = .char (Char.ofNat b.toNat) :: runes t := by
  have hc : (Char.ofNat b.toNat).toNat < 0x80 := by rwa [Rune.toNat_ofNat h]
  rw [runes_cons,Rune.first_of_lt h,Rune.bytes_of_lt hc]
  rfl

@[simp] lemma ofRunes_nil : ofRunes [] = [] := rfl

@[simp] lemma ofRunes_cons (r : Rune) (rs : List Rune) :
    ofRunes (r::rs) = r.bytes ++ ofRunes rs := rfl

/-- The first rune of a text and the text after it. -/
lemma runes_cons_exists (b : UInt8) (t : Text) :
    ∃ more, b::t = (Rune.first b t).bytes ++ more ∧
      runes (b::t) = Rune.first b t :: runes more := by
  obtain ⟨more,hm⟩ := Rune.bytes_first b t
  refine ⟨more,hm,?_⟩
  rw [runes_cons]
  congr 2
  rw [hm]
  exact List.drop_left

/-- Nothing is lost by the view of a text as runes. -/
@[simp] theorem ofRunes_runes (t : Text) : ofRunes t.runes = t := by
  induction h : t.length using Nat.strong_induction_on generalizing t with
  | _ n ih =>
    cases t with
    | nil => rfl
    | cons b t =>
      obtain ⟨more,hm,hr⟩ := runes_cons_exists b t
      have hb := List.length_pos_of_ne_nil (Rune.bytes_ne_nil (Rune.first b t))
      have hl : more.length < n := by
        rw [← h,hm,List.length_append]
        omega
      rw [hr,ofRunes_cons,ih more.length hl more rfl,← hm]

lemma runes_injective {a b : Text} (h : a.runes = b.runes) : a = b := by
  rw [← ofRunes_runes a,h,ofRunes_runes]

/-- Where the runes of a text are cut in two, the text is. -/
lemma runes_split {t : Text} {a b : List Rune} (h : t.runes = a ++ b) :
    ∃ v, t = ofRunes a ++ v ∧ v.runes = b := by
  induction a generalizing t with
  | nil => exact ⟨t,rfl,h⟩
  | cons r a ih =>
    cases t with
    | nil => simp at h
    | cons x t =>
      obtain ⟨more,hm,hr⟩ := runes_cons_exists x t
      rw [hr,List.cons_append,List.cons.injEq] at h
      obtain ⟨v,hv,hb⟩ := ih h.2
      refine ⟨v,?_,hb⟩
      rw [hm,hv,h.1,ofRunes_cons,List.append_assoc]

/-- A text is read on its own behind another one unless it starts with a continuation byte. -/
theorem runes_append (a : Text) {b : Text} (h : ∀ y ∈ b.head?, Rune.payload? y = none) :
    runes (a ++ b) = runes a ++ runes b := by
  induction hn : a.length using Nat.strong_induction_on generalizing a with
  | _ n ih =>
    cases a with
    | nil => rfl
    | cons x a =>
      obtain ⟨more,hm,hr⟩ := runes_cons_exists x a
      have hb := List.length_pos_of_ne_nil (Rune.bytes_ne_nil (Rune.first x a))
      have hl : more.length < n := by
        rw [← hn,hm,List.length_append]
        omega
      rw [hr,List.cons_append,runes_cons,Rune.first_append x a h,← List.cons_append]
      rw [hm]
      rw [List.append_assoc,List.drop_left,ih more.length hl more rfl]
      rfl

lemma toNat_ascii {c : Char} (hc : c.toNat < 0x80) : (ascii c).toNat = c.toNat :=
  Nat.mod_eq_of_lt (lt_trans hc (by norm_num))

lemma runes_plain {u v : Text} (hv : ∀ b ∈ v.head?, b.toNat < 0x80) :
    (u ++ v).runes = u.runes ++ v.runes :=
  runes_append u fun b hb => Rune.payload?_of_lt (hv b hb)

lemma runes_ascii {c : Char} (hc : c.toNat < 0x80) (t : Text) :
    runes (ascii c::t) = .char c::runes t := by
  rw [runes_cons_of_lt (by rw [toNat_ascii hc]; exact hc),toNat_ascii hc,Char.ofNat_toNat]

lemma ascii_ofNat {b : UInt8} (hb : b.toNat < 0x80) : ascii (Char.ofNat b.toNat) = b := by
  rw [ascii,Char.toUInt8]
  exact Rune.ofNat_eq (Rune.toNat_ofNat hb)

/-- An ASCII character among the runes of a text stands there as a byte. -/
lemma runes_split_ascii {t : Text} {c : Char} (hc : c.toNat < 0x80) {a b : List Rune}
    (h : t.runes = a ++ .char c::b) : ∃ u v, t = u ++ ascii c::v ∧ runes u = a ∧ runes v = b := by
  obtain ⟨w,rfl,hw⟩ := runes_split h
  have hhead : ∃ v, w = ascii c::v := by
    cases w with
    | nil => simp at hw
    | cons x v =>
      rw [runes_cons,List.cons.injEq] at hw
      by_cases hx : x.toNat < 0x80
      · rw [Rune.first_of_lt hx,Rune.char.injEq] at hw
        refine ⟨v,?_⟩
        rw [← hw.1,ascii_ofNat hx]
      · exact absurd hw.1 ((Rune.le_of_mem_first (by omega) v).2 c hc)
  obtain ⟨v,rfl⟩ := hhead
  rw [runes_ascii hc,List.cons.injEq] at hw
  have hplain : ∀ b ∈ (ascii c::v).head?, b.toNat < 0x80 := by
    rintro b ⟨⟩
    rwa [toNat_ascii hc]
  rw [runes_plain hplain,runes_ascii hc,hw.2] at h
  exact ⟨ofRunes a,v,rfl,List.append_cancel_right h,hw.2⟩

lemma not_mem_runes {u : Text} {c : Char} (hc : c.toNat < 0x80) (hu : ascii c ∉ u) :
    Rune.char c ∉ u.runes := by
  intro hm
  have hb : UInt8.ofNat c.toNat ∈ ofRunes u.runes := by
    simp only [ofRunes,List.mem_flatMap]
    exact ⟨_,hm,by simp [Rune.bytes_of_lt hc]⟩
  rw [ofRunes_runes] at hb
  exact hu hb

lemma ascii_injective {c d : Char} (hc : c.toNat < 0x80) (hd : d.toNat < 0x80)
    (h : ascii c = ascii d) : c = d := by
  have hn := congrArg UInt8.toNat h
  rw [toNat_ascii hc,toNat_ascii hd] at hn
  exact Char.toNat_inj.mp hn

/-- The ASCII bytes of a text are among its runes. -/
lemma mem_runes_of_mem {t : Text} {c : Char} (hc : c.toNat < 0x80) (h : ascii c ∈ t) :
    Rune.char c ∈ t.runes := by
  induction hn : t.length using Nat.strong_induction_on generalizing t with
  | _ n ih =>
    cases t with
    | nil => simp at h
    | cons b t =>
      obtain ⟨more,hm,hr⟩ := runes_cons_exists b t
      rw [hr]
      have hlen : more.length < n := by
        have hpos := List.length_pos_of_ne_nil (Rune.bytes_ne_nil (Rune.first b t))
        have hl := congrArg List.length hm
        rw [List.length_append] at hl
        omega
      rw [hm,List.mem_append] at h
      rcases h with h | h
      · by_cases hb : b.toNat < 0x80
        · rw [Rune.first_of_lt hb] at h ⊢
          have hb' : (Char.ofNat b.toNat).toNat < 0x80 := by rwa [Rune.toNat_ofNat hb]
          rw [Rune.bytes_of_lt hb',List.mem_singleton] at h
          rw [ascii_injective hc hb' h]
          simp
        · have hx := (Rune.le_of_mem_first (by omega) t).1 _ h
          rw [toNat_ascii hc] at hx
          omega
      · exact List.mem_cons_of_mem _ (ih more.length hlen h rfl)

/-- The rune at the front of a text: only its first byte can be an ASCII one, and then it stands for
itself. -/
lemma runes_cons_split (b : UInt8) (t : Text) : ∃ w more, t = w ++ more ∧
    runes (b::t) = Rune.first b t :: runes more ∧ (∀ x ∈ w, 0x80 ≤ x.toNat) ∧
      ∀ c : Char, c.toNat < 0x80 → (Rune.first b t = .char c ↔ b = ascii c) := by
  by_cases hb : b.toNat < 0x80
  · refine ⟨[],t,rfl,?_,by simp,?_⟩
    · rw [runes_cons_of_lt hb,Rune.first_of_lt hb]
    · intro c hc
      rw [Rune.first_of_lt hb,Rune.char.injEq]
      refine ⟨fun h => ?_,fun h => ?_⟩
      · rw [← h,ascii_ofNat hb]
      · subst h
        rw [toNat_ascii hc,Char.ofNat_toNat]
  · obtain ⟨more,hm,hr⟩ := runes_cons_exists b t
    obtain ⟨hx,hne⟩ := Rune.le_of_mem_first (b := b) (by omega) t
    obtain ⟨y,w,hw⟩ := List.exists_cons_of_ne_nil (Rune.bytes_ne_nil (Rune.first b t))
    rw [hw,List.cons_append,List.cons.injEq] at hm
    refine ⟨w,more,hm.2,hr,fun x hxw => hx x (by simp [hw,hxw]),?_⟩
    intro c hc
    refine ⟨fun h => absurd h (hne c hc),?_⟩
    rintro rfl
    rw [toNat_ascii hc] at hb
    omega

lemma ne_ascii_of_le {x : UInt8} {c : Char} (hx : 0x80 ≤ x.toNat) (hc : c.toNat < 0x80) :
    x ≠ ascii c := by
  rintro rfl
  rw [toNat_ascii hc] at hx
  omega

end Text
end CellScript
