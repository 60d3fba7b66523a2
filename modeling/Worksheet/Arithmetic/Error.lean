/-
What can go wrong in real arithmetic, by cause.
-/

namespace Worksheet.Arithmetic

/-- Why an expression cannot be read or has no value. -/
inductive ArithmeticError where
  | missingInput
  | invalidNumber (lexeme : String)
  | invalidSymbol (symbol : Char)
  | emptyExpression
  | incompleteExpression
  | missingBracket
  | unknownFunction (name : String)
  | unexpectedSymbol (display : String)
  | nothingToCalculate
  | undefinedVariable (name : String)
  | invalidOperator (symbol : String)
  | divisionByZero
  | negativeRoot
  deriving DecidableEq, Repr

/-- What is said about an error. -/
def ArithmeticError.message : ArithmeticError → String
  | .missingInput => "Missing input value."
  | .invalidNumber lexeme => "Invalid number \"" ++ lexeme ++ "\"."
  | .invalidSymbol symbol => "Invalid symbol \"" ++ symbol.toString ++ "\"."
  | .emptyExpression => "Empty expression."
  | .incompleteExpression => "Incomplete expression."
  | .missingBracket => "Missing right bracket \")\"."
  | .unknownFunction name => "Unknown function \"" ++ name ++ "\"."
  | .unexpectedSymbol display => "Unexpected symbol in \"" ++ display ++ "\"."
  | .nothingToCalculate => "Nothing to calculate."
  | .undefinedVariable name => "Undefined variable \"" ++ name ++ "\"."
  | .invalidOperator symbol => "Invalid operator \"" ++ symbol ++ "\"."
  | .divisionByZero => "Division by zero."
  | .negativeRoot => "Square root of a negative number."

end Worksheet.Arithmetic
