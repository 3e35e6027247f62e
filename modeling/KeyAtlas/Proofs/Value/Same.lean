import KeyAtlas.Value

namespace KeyAtlas.Value

mutual

def isSame : Value → Value → Bool
  | null, null => true
  | flag a, flag b => a = b
  | int m, int n => m = n
  | text s, text t => s = t
  | points a, points b => a = b
  | octets a, octets b => a = b
  | opaqueScalar s, opaqueScalar t => s = t
  | sequence items, sequence others => areSame items others
  | mapping fields, mapping others => holdSame fields others
  | _, _ => false

def areSame : List Value → List Value → Bool
  | [], [] => true
  | item :: rest, other :: others => item.isSame other && areSame rest others
  | _, _ => false

def holdSame : List (Key × Value) → List (Key × Value) → Bool
  | [], [] => true
  | (key, value) :: rest, (k, other) :: others => key = k && value.isSame other && holdSame rest others
  | _, _ => false

end

mutual

theorem eq_of_isSame : (value other : Value) → value.isSame other → value = other
  | sequence items, other, same => by
    cases other with
    | sequence others => rw [areSame_eq items others (by simpa [isSame] using same)]
    | _ => simp [isSame] at same
  | mapping fields, other, same => by
    cases other with
    | mapping others => rw [holdSame_eq fields others (by simpa [isSame] using same)]
    | _ => simp [isSame] at same
  | null, other, same => by cases other <;> simp_all [isSame]
  | flag _, other, same => by cases other <;> simp_all [isSame]
  | int _, other, same => by cases other <;> simp_all [isSame]
  | float _, other, same => by cases other <;> simp [isSame] at same
  | text _, other, same => by cases other <;> simp_all [isSame]
  | points _, other, same => by cases other <;> simp_all [isSame]
  | octets _, other, same => by cases other <;> simp_all [isSame]
  | opaqueScalar _, other, same => by cases other <;> simp_all [isSame]

theorem areSame_eq : (items others : List Value) → areSame items others → items = others
  | [], [], _ => rfl
  | [], _ :: _, same => by simp [areSame] at same
  | _ :: _, [], same => by simp [areSame] at same
  | item :: rest, other :: others, same => by
    rw [areSame, Bool.and_eq_true] at same
    rw [eq_of_isSame item other same.1, areSame_eq rest others same.2]

theorem holdSame_eq : (fields others : List (Key × Value)) → holdSame fields others →
    fields = others
  | [], [], _ => rfl
  | [], _ :: _, same => by simp [holdSame] at same
  | _ :: _, [], same => by simp [holdSame] at same
  | (key, value) :: rest, (k, other) :: others, same => by
    simp only [holdSame, Bool.and_eq_true, decide_eq_true_eq] at same
    rw [same.1.1, eq_of_isSame value other same.1.2, holdSame_eq rest others same.2]

end

theorem eq_ok_of_isSame {ε : Type} {c : Except ε Value} {value : Value}
    (same : c.toOption.any value.isSame) : c = .ok value := by
  cases c with
  | error _ => cases same
  | ok other => rw [eq_of_isSame value other same]

end KeyAtlas.Value
