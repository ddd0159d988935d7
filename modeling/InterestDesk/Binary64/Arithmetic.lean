import InterestDesk.Binary64.Basic
/-!
# Arithmetic — exact results, rounded once

Sum, product and quotient of finite numbers are taken exactly in units and rounded with `ofRatio`.  The sign of an
exact zero sum of opposite signs is plus; a product and a quotient take the sign rule of their factors.
-/
namespace InterestDesk
namespace Binary64

def neg : Binary64 → Binary64
  | .nan => .nan
  | .infinity s => .infinity (!s)
  | .finite s a => .finite (!s) a

def add : Binary64 → Binary64 → Binary64
  | .nan, _ => .nan
  | _, .nan => .nan
  | .infinity s, .infinity t => if s = t then .infinity s else .nan
  | .infinity s, .finite _ _ => .infinity s
  | .finite _ _, .infinity t => .infinity t
  | .finite s a, .finite t b =>
    if s = t then ofRatio s (a.units + b.units) 1
    else if a.units = b.units then zero false
    else if b.units < a.units then ofRatio s (a.units - b.units) 1
    else ofRatio t (b.units - a.units) 1

def sub (x y : Binary64) : Binary64 :=
  add x y.neg

def mul : Binary64 → Binary64 → Binary64
  | .nan, _ => .nan
  | _, .nan => .nan
  | .infinity s, .infinity t => .infinity (s != t)
  | .infinity s, .finite t b => if b.isZero then .nan else .infinity (s != t)
  | .finite s a, .infinity t => if a.isZero then .nan else .infinity (s != t)
  | .finite s a, .finite t b => ofRatio (s != t) (a.units * b.units) unitsPerOne

def div : Binary64 → Binary64 → Binary64
  | .nan, _ => .nan
  | _, .nan => .nan
  | .infinity _, .infinity _ => .nan
  | .infinity s, .finite t _ => .infinity (s != t)
  | .finite s _, .infinity t => zero (s != t)
  | .finite s a, .finite t b =>
    if b.isZero then
      if a.isZero then .nan else .infinity (s != t)
    else ofRatio (s != t) (a.units * unitsPerOne) b.units

instance : Neg Binary64 := ⟨neg⟩
instance : Add Binary64 := ⟨add⟩
instance : Sub Binary64 := ⟨sub⟩
instance : Mul Binary64 := ⟨mul⟩
instance : Div Binary64 := ⟨div⟩

end Binary64
end InterestDesk
