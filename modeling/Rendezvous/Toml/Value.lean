/-
Values of a settings file.

A date is only known to be one: no setting takes a date.
-/
namespace Rendezvous

/-- A value of a settings file. -/
inductive Toml where
  | str (s : String)
  | int (n : Int)
  | real (x : Float)
  | bool (b : Bool)
  | date
  | arr (items : List Toml)
  | table (members : List (String × Toml))
deriving Inhabited

end Rendezvous
