import Polyloom.Backend.ElementType
import Polyloom.Source.Tree

/-!
Scripts: sequences of steps that drive the builders.

A step calls, reads or changes something and may keep its result in a variable.  Functions of
a script hold steps of their own; functions and classes may also be given as source trees.
-/

namespace Polyloom

inductive BinaryOperator where
  | add
  | sub
  | mul
  | lt
  | gt
  | le
  | ge
  | eq
  deriving DecidableEq, Repr

namespace BinaryOperator

def symbol : BinaryOperator → String
  | .add => "+"
  | .sub => "-"
  | .mul => "*"
  | .lt => "<"
  | .gt => ">"
  | .le => "<="
  | .ge => ">="
  | .eq => "=="

def all : List BinaryOperator := [.add, .sub, .mul, .lt, .gt, .le, .ge, .eq]

def ofSymbol? (text : String) : Option BinaryOperator := all.find? fun op => op.symbol = text

end BinaryOperator

inductive UnaryOperator where
  | neg
  | abs
  | ceil
  | floor
  deriving DecidableEq, Repr

namespace UnaryOperator

def symbol : UnaryOperator → String
  | .neg => "neg"
  | .abs => "abs"
  | .ceil => "ceil"
  | .floor => "floor"

def all : List UnaryOperator := [.neg, .abs, .ceil, .floor]

def ofSymbol? (text : String) : Option UnaryOperator := all.find? fun op => op.symbol = text

end UnaryOperator

mutual

inductive Argument where
  | scalar (d : Datum)
  | list (items : List Argument)
  | variable (name : String)
  | type (text : String)
  | fresh (type : String)
  | tuple (items : List Argument)
  | attribute (cls : String) (payload : Argument)
  | map (text : String)
  | ref (path : String)
  | dict (entries : List (String × Argument))
  | array (element : ElementType) (shape : List Nat)
  | machineInt (n : Int)
  | function (name : String) (params : List (String × Option Argument)) (steps : List Step)
      (result : Option Argument)
  | source (tree : SourceTree) (globals : List (String × Argument))

inductive Step where
  | mk (action : Action) (keepAs : Option String)

inductive Action where
  | call (target : Argument) (args : List Argument) (named : List (String × Argument))
      (again : Option (List Argument))
  | method (name : String) (of : Argument) (args : List Argument) (named : List (String × Argument))
  | get (name : String) (of : Argument)
  | set (name : String) (of value : Argument)
  | del (name : String) (of : Argument)
  | binary (op : BinaryOperator) (a b : Argument)
  | unary (op : UnaryOperator) (a : Argument)
  | getItem (of key : Argument)
  | setItem (of key value : Argument)
  | enter (of : Argument)
  | leave (of : Argument)
  | text (of : Argument)
  | display (of : Argument)
  | keep (of : Argument)

end

instance : Inhabited Argument := ⟨.scalar .null⟩

instance : Inhabited Action := ⟨.keep default⟩

instance : Inhabited Step := ⟨.mk default none⟩

end Polyloom
