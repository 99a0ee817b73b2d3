/-
# Words for options

Options have four settings.  Each has a word for what it is set to and a key under which a text sets it.  The
words tell options apart.
-/
import ComponentLowering.Settings.OptionsText
import Mathlib.Logic.Function.Basic

namespace ComponentLowering.Settings

/-- What there is to set. -/
inductive Setting where
  | corePath | convention | componentExport | style
deriving DecidableEq, Repr

namespace Setting

variable {a b : Options} {setting other : Setting}

/-- The key of a setting. -/
def key : Setting → String
  | corePath => "coreImportPath"
  | convention => "module"
  | componentExport => "componentExport"
  | style => "style"

/-- The word for what options have a setting at. -/
def word (o : Options) : Setting → String
  | corePath => o.corePath
  | convention => o.convention.name
  | componentExport => o.componentExport.name
  | style => o.style.name

/-- The word for what a text sets a setting to, if it does. -/
def word? (o : GivenOptions) : Setting → Option String
  | corePath => o.corePath
  | convention => o.convention.map Convention.name
  | componentExport => o.componentExport.map ComponentExport.name
  | style => o.style.map StyleMode.name

theorem key_inj : setting.key = other.key ↔ setting = other := by
  constructor
  · intro same
    cases setting <;> cases other <;> simp [key] at same ⊢
  · rintro rfl
    rfl

theorem name_convention_injective : Function.Injective Convention.name := by
  intro a b same
  cases a <;> cases b <;> simp [Convention.name] at same ⊢

theorem name_componentExport_injective : Function.Injective ComponentExport.name := by
  intro a b same
  cases a <;> cases b <;> simp [ComponentExport.name] at same ⊢

theorem name_style_injective : Function.Injective StyleMode.name := by
  intro a b same
  cases a <;> cases b <;> simp [StyleMode.name] at same ⊢

/-- Options are told apart by the words for their settings. -/
theorem eq_of_word (same : ∀ setting, word a setting = word b setting) : a = b := by
  obtain ⟨path, convention, componentExport, style⟩ := a
  obtain ⟨path', convention', componentExport', style'⟩ := b
  obtain rfl : path = path' := same .corePath
  obtain rfl : convention = convention' := name_convention_injective (same .convention)
  obtain rfl : componentExport = componentExport' := name_componentExport_injective (same .componentExport)
  obtain rfl : style = style' := name_style_injective (same .style)
  rfl

/-- Options that are completed have their own settings and the defaults for the others. -/
theorem word_complete (o : GivenOptions) (setting : Setting) :
    word o.complete setting = (word? o setting).getD (word {} setting) := by
  obtain ⟨path, convention, componentExport, style⟩ := o
  cases setting with
  | corePath => rfl
  | convention => cases convention <;> rfl
  | componentExport => cases componentExport <;> rfl
  | style => cases style <;> rfl

end Setting

end ComponentLowering.Settings
