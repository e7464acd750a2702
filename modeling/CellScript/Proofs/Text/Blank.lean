import Mathlib
import CellScript.Proofs.Text.Runes
import CellScript.Text.Blank

/-! White space in a text. What is at the two ends is taken away, whatever characters it is made of, and
nothing else is. -/
namespace CellScript

/-- White space goes on no encoding. -/
lemma Rune.payload?_of_isSpace {b : UInt8} {t : Text} (h : (Rune.first b t).isSpace = true) :
    Rune.payload? b = none := by
  cases hb : Rune.payload? b with
  | none => rfl
  | some n =>
    obtain ⟨hlow,hhigh,-⟩ := Rune.payload?_eq_some hb
    have hnot : ¬b < 0x80 := by
      rw [UInt8.lt_iff_toNat_lt]
      exact hlow.not_gt
    have hlt : b < 0xC0 := by
      rw [UInt8.lt_iff_toNat_lt]
      exact hhigh
    simp [Rune.first,Rune.decode?,hnot,hlt,Rune.isSpace] at h

namespace Text

def IsSpace (t : Text) : Prop := ∀ r ∈ t.runes, r.isSpace = true

instance (t : Text) : Decidable t.IsSpace :=
  inferInstanceAs (Decidable (∀ r ∈ t.runes, r.isSpace = true))

lemma isSpace_nil : IsSpace [] := by
  simp [IsSpace]

lemma IsSpace.payload? {t : Text} (h : t.IsSpace) : ∀ b ∈ t.head?, Rune.payload? b = none := by
  cases t with
  | nil => simp
  | cons b t =>
    intro c hc
    obtain rfl : b = c := Option.some.inj hc
    exact Rune.payload?_of_isSpace (h (Rune.first b t) (by simp [runes_cons]))

/-- A byte that stands for a visible ASCII character. -/
def IsVisible (b : UInt8) : Prop := 0x20 < b.toNat ∧ b.toNat < 0x7F

instance (b : UInt8) : Decidable (IsVisible b) :=
  inferInstanceAs (Decidable (0x20 < b.toNat ∧ b.toNat < 0x7F))

lemma isVisible_of_isWord {b : UInt8} (h : isWord b = true) : IsVisible b := by
  have hall : ∀ b : UInt8, isWord b = true → IsVisible b := by decide +kernel
  exact hall b h

lemma isVisible_of_isQuote {b : UInt8} (h : isQuote b = true) : IsVisible b := by
  have hall : ∀ b : UInt8, isQuote b = true → IsVisible b := by decide +kernel
  exact hall b h

lemma IsVisible.not_isSpace {b : UInt8} (h : IsVisible b) :
    (Rune.char (Char.ofNat b.toNat)).isSpace = false := by
  have hall : ∀ b : UInt8, IsVisible b → (Rune.char (Char.ofNat b.toNat)).isSpace = false := by
    decide +kernel
  exact hall b h

lemma IsVisible.lt {b : UInt8} (h : IsVisible b) : b.toNat < 0x80 := h.2.trans (by norm_num)

lemma IsVisible.mem_runes {b : UInt8} (hb : IsVisible b) {t : Text} (h : b ∈ t) :
    .char (Char.ofNat b.toNat) ∈ t.runes := by
  rw [← ascii_ofNat hb.lt] at h
  exact mem_runes_of_mem (by rw [Rune.toNat_ofNat hb.lt]; exact hb.lt) h

lemma not_isSpace_runes {t : Text} (h : ∀ b ∈ t, IsVisible b) : ∀ r ∈ t.runes, r.isSpace = false := by
  induction t with
  | nil => simp
  | cons b t ih =>
    obtain ⟨hb,ht⟩ := List.forall_mem_cons.mp h
    rw [runes_cons_of_lt hb.lt]
    exact List.forall_mem_cons.mpr ⟨hb.not_isSpace,ih ht⟩

lemma dropWhile_surrounded {α : Type} {p : α → Bool} {ws ts us : List α}
    (hws : ∀ a ∈ ws, p a = true) (hts : ∀ a ∈ ts, p a = false) (hus : ∀ a ∈ us, p a = true) :
    ((ws ++ (ts ++ us)).dropWhile p).reverse.dropWhile p = ts.reverse := by
  have hkeep : ∀ xs : List α, (∀ a ∈ xs, p a = false) → xs.dropWhile p = xs := by
    intro xs hxs
    cases xs with
    | nil => rfl
    | cons a xs => rw [List.dropWhile_cons_of_neg (by simp [hxs a])]
  rw [List.dropWhile_append_of_pos hws]
  cases ts with
  | nil =>
    rw [List.nil_append,List.dropWhile_eq_nil_iff.mpr hus]
    rfl
  | cons a ts =>
    have ha : ¬p a = true := by simp [hts a]
    rw [List.cons_append,List.dropWhile_cons_of_neg ha,← List.cons_append,List.reverse_append,
      List.dropWhile_append_of_pos (by simpa using hus),
      hkeep _ fun c hc => hts c (List.mem_reverse.mp hc)]

/-- Visible characters are what is left when white space is put around them. -/
theorem trim_surrounded {before t behind : Text} (hbefore : before.IsSpace) (hbehind : behind.IsSpace)
    (ht : ∀ b ∈ t, IsVisible b) : trim (before ++ (t ++ behind)) = t := by
  have hruns : (before ++ (t ++ behind)).runes = before.runes ++ (t.runes ++ behind.runes) := by
    rw [runes_append before ?_,runes_append t hbehind.payload?]
    cases t with
    | nil => exact hbehind.payload?
    | cons b t =>
      intro c hc
      obtain rfl : b = c := Option.some.inj hc
      exact Rune.payload?_of_lt ((ht b (by simp)).2.trans (by norm_num))
  rw [trim,hruns,dropWhile_surrounded hbefore (not_isSpace_runes ht) hbehind,List.reverse_reverse,
    ofRunes_runes]

lemma ofRunes_subset {rs ss : List Rune} (h : rs ⊆ ss) : ofRunes rs ⊆ ofRunes ss := by
  intro b hb
  obtain ⟨r,hr,hbr⟩ := List.mem_flatMap.mp hb
  exact List.mem_flatMap.mpr ⟨r,h hr,hbr⟩

/-- Trimming adds nothing to a text. -/
lemma trim_subset (t : Text) : t.trim ⊆ t := by
  have hruns : (((t.runes.dropWhile Rune.isSpace).reverse.dropWhile Rune.isSpace).reverse) ⊆
      t.runes := by
    intro r hr
    rw [List.mem_reverse] at hr
    exact List.dropWhile_subset _ (List.mem_reverse.mp (List.dropWhile_subset _ hr))
  have h := ofRunes_subset hruns
  rwa [ofRunes_runes] at h

/-- Trimming takes nothing but white space away. -/
lemma mem_trim {t : Text} {b : UInt8} (hb : IsVisible b) (h : b ∈ t) : b ∈ t.trim := by
  have hdrop : ∀ r : Rune, r.isSpace = false → ∀ rs : List Rune, r ∈ rs →
      r ∈ rs.dropWhile Rune.isSpace := by
    intro r hspace rs hrs
    rw [← List.takeWhile_append_dropWhile (p := Rune.isSpace) (l := rs),List.mem_append] at hrs
    refine hrs.resolve_left fun hm => ?_
    rw [List.mem_takeWhile_imp hm] at hspace
    simp at hspace
  have hkeep := hdrop _ hb.not_isSpace
  have hmem : .char (Char.ofNat b.toNat) ∈
      ((t.runes.dropWhile Rune.isSpace).reverse.dropWhile Rune.isSpace).reverse :=
    List.mem_reverse.mpr (hkeep _ (List.mem_reverse.mpr (hkeep _ (hb.mem_runes h))))
  refine List.mem_flatMap.mpr ⟨_,hmem,?_⟩
  rw [Rune.bytes_of_lt (by rw [Rune.toNat_ofNat hb.lt]; exact hb.lt)]
  exact List.mem_singleton.mpr (ascii_ofNat hb.lt).symm

/-- What is blank is left empty by trimming: it is all white space. -/
lemma blankOnly_iff {t : Text} : t.blankOnly = true ↔ t.IsSpace := by
  have hnil : ∀ rs : List Rune, ofRunes rs = [] ↔ rs = [] := by
    intro rs
    cases rs with
    | nil => simp
    | cons r rs => simp [Rune.bytes_ne_nil]
  rw [blankOnly,trim,List.isEmpty_iff,hnil,List.reverse_eq_nil_iff,List.dropWhile_eq_nil_iff]
  refine ⟨fun h => ?_,fun h => ?_⟩
  · have hd : t.runes.dropWhile Rune.isSpace = [] := by
      cases hx : t.runes.dropWhile Rune.isSpace with
      | nil => rfl
      | cons r rs =>
        have hn := List.head?_dropWhile_not Rune.isSpace t.runes
        rw [hx] at hn h
        simp only [List.head?_cons] at hn
        rw [h r (by simp)] at hn
        simp at hn
    exact List.dropWhile_eq_nil_iff.mp hd
  · rw [List.dropWhile_eq_nil_iff.mpr h]
    simp

/-- A text is not blank if it has a visible character. -/
lemma not_blankOnly_of_mem {t : Text} {b : UInt8} (hb : IsVisible b) (h : b ∈ t) :
    t.blankOnly = false := by
  by_contra hblank
  rw [Bool.not_eq_false,blankOnly_iff] at hblank
  have hspace := hblank _ (hb.mem_runes h)
  rw [hb.not_isSpace] at hspace
  exact Bool.false_ne_true hspace

end Text
end CellScript
