/-!
The texts of the language. A text is a sequence of code points. Almost all code points are
characters. The surrogates are none: they stand for characters in pairs only, but a text may have
one that stands alone, and such a text has no UTF-8 form.
-/

namespace Wei

/-- A code point: a character, or one of the 2048 surrogates by its number. -/
inductive Point where
  | char (c : Char)
  | surrogate (n : Fin 2048)
  deriving DecidableEq, Repr

/-- A text of the language. -/
abbrev Text := List Point

namespace Point

/-- The number of the code point. -/
def code : Point → Nat
  | .char c => c.toNat
  | .surrogate n => 0xd800 + n

/-- The character, if it is one. -/
def char? : Point → Option Char
  | .char c => some c
  | .surrogate _ => none

/-- Is it a character? -/
def isChar (p : Point) : Bool := p.char?.isSome

end Point

namespace Text

/-- The text of characters. -/
def ofString (s : String) : Text := s.toList.map .char

instance : Coe String Text := ⟨ofString⟩

/-- Has the text a UTF-8 form? -/
def isPlain (t : Text) : Bool := t.all Point.isChar

/-- The characters of a text. Surrogates are left out. -/
def plain (t : Text) : String := String.ofList (t.filterMap Point.char?)

@[simp] theorem isPlain_ofString (s : String) : isPlain s = true := by
  simp [isPlain, ofString, Point.isChar, Point.char?]

@[simp] theorem plain_ofString (s : String) : plain s = s := by
  simp [plain, ofString, List.filterMap_map, Function.comp_def, Point.char?]

/-- A text that has a UTF-8 form consists of its characters. -/
theorem ofString_plain {t : Text} (h : t.isPlain = true) : ofString t.plain = t := by
  unfold ofString plain
  rw [String.toList_ofList]
  induction t with
  | nil => rfl
  | cons p rest ih =>
    obtain ⟨hp, hrest⟩ := (Bool.and_eq_true ..).mp (show (p.isChar && rest.all _) = true from h)
    cases p with
    | char c => exact congrArg (Point.char c :: ·) (ih hrest)
    | surrogate n => cases hp

theorem ofString_inj {s s' : String} : ofString s = ofString s' ↔ s = s' := by
  refine ⟨fun h => ?_, congrArg ofString⟩
  rw [← plain_ofString s, h, plain_ofString]

end Text

end Wei
