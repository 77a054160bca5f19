import TradeScript.Diagnostic.Basic

/-!
# TradeScript.Proofs.Wording

Messages name tokens. A finding that is about one token (`Finding.token?`) has
the token in its message, between words that depend on the code. So the code and
the message of a diagnostic tell the token, whatever finding they come from
(`Finding.token?_eq_of_report_eq`).
-/

namespace TradeScript

/-- The token that the message of a finding names, for the findings that are
about one token. -/
def Finding.token? : Finding → Option (List Char)
  | undefinedVariable name | undefinedFunction name | unusedVariable name
  | reservedKeyword name _ | magicNumber name | invalidPropertyValue name => some name.toList
  | invalidPreprocessor name => some ('#' :: name.toList)
  | unmatchedBracket found | mismatchedBracket _ found | unclosedBracket found => some [found]
  | _ => none

/-! ### Words around a token -/

theorem eq_of_append_append {a b x y : String} (h : a ++ x ++ b = a ++ y ++ b) : x = y :=
  (String.append_right_inj a).mp ((String.append_left_inj b).mp h)

/-- The last character of a text, whatever stands before it. -/
theorem eq_of_append_toString {a b : String} {c d : Char} (h : a ++ toString c = b ++ toString d) :
    c = d := by
  have hlist := congrArg String.toList h
  rw [String.toList_append, String.toList_append] at hlist
  have hone : ∀ e : Char, (toString e).toList = [e] := String.toList_singleton
  rw [hone, hone] at hlist
  exact List.singleton_inj.mp (List.append_inj' hlist rfl).2

theorem take_reverse_append (a b : String) {n : Nat} (h : n ≤ b.toList.length) :
    (a ++ b).toList.reverse.take n = b.toList.reverse.take n := by
  rw [String.toList_append, List.reverse_append, List.take_append_of_le_length]
  rwa [List.length_reverse]

namespace Finding

/-- The two wordings for reserved words end in different words. -/
theorem reservedKeyword_message_ne (name name' : String) :
    (reservedKeyword name true).message ≠ (reservedKeyword name' false).message := by
  intro h
  have harray : (reservedKeyword name true).message.toList.reverse.take 6 = _ :=
    take_reverse_append ("'" ++ name) "' is a reserved keyword and cannot be used as an array name"
      (by decide)
  have hvariable : (reservedKeyword name' false).message.toList.reverse.take 6 = _ :=
    take_reverse_append ("'" ++ name')
      "' is a reserved keyword and cannot be used as a variable name" (by decide)
  rw [h, hvariable] at harray
  exact absurd harray (by decide)

theorem reservedKeyword_message_inj {name name' : String} {isArray isArray' : Bool}
    (h : (reservedKeyword name isArray).message = (reservedKeyword name' isArray').message) :
    name = name' := by
  cases isArray with
  | true =>
      cases isArray' with
      | true => exact eq_of_append_append h
      | false => exact absurd h (reservedKeyword_message_ne name name')
  | false =>
      cases isArray' with
      | true => exact absurd h.symm (reservedKeyword_message_ne name' name)
      | false => exact eq_of_append_append h

theorem mismatchedBracket_message_inj {expected found expected' found' : Char}
    (h : (mismatchedBracket expected found).message =
      (mismatchedBracket expected' found').message) : found = found' :=
  eq_of_append_toString ((String.append_left_inj "'").mp h)

/-- The code and the message of a diagnostic tell the token it names. -/
theorem token?_eq_of_report_eq {f g : Finding} {r s : Range} (h : f.report r = g.report s) :
    f.token? = g.token? := by
  have hcode : f.code = g.code := congrArg Diagnostic.code h
  have hmessage : f.message = g.message := congrArg Diagnostic.message h
  -- A code has one finding, except that of literals of the wrong type, which name no token.
  cases f with
  | undefinedVariable name =>
      cases g with
      | undefinedVariable name' =>
          obtain rfl : name = name' := eq_of_append_append hmessage
          rfl
      | _ => exact Code.noConfusion hcode
  | undefinedFunction name =>
      cases g with
      | undefinedFunction name' =>
          obtain rfl : name = name' := eq_of_append_append hmessage
          rfl
      | _ => exact Code.noConfusion hcode
  | unusedVariable name =>
      cases g with
      | unusedVariable name' =>
          obtain rfl : name = name' := eq_of_append_append hmessage
          rfl
      | _ => exact Code.noConfusion hcode
  | magicNumber digits =>
      cases g with
      | magicNumber digits' =>
          obtain rfl : digits = digits' := eq_of_append_append hmessage
          rfl
      | _ => exact Code.noConfusion hcode
  | invalidPropertyValue key =>
      cases g with
      | invalidPropertyValue key' =>
          obtain rfl : key = key' := eq_of_append_append hmessage
          rfl
      | _ => exact Code.noConfusion hcode
  | invalidPreprocessor name =>
      cases g with
      | invalidPreprocessor name' =>
          obtain rfl : name = name' := eq_of_append_append hmessage
          rfl
      | _ => exact Code.noConfusion hcode
  | reservedKeyword name isArray =>
      cases g with
      | reservedKeyword name' isArray' =>
          obtain rfl := reservedKeyword_message_inj hmessage
          rfl
      | _ => exact Code.noConfusion hcode
  | unmatchedBracket found =>
      cases g with
      | unmatchedBracket found' =>
          rw [eq_of_append_toString ((String.append_left_inj "'").mp hmessage)]
      | _ => exact Code.noConfusion hcode
  | mismatchedBracket expected found =>
      cases g with
      | mismatchedBracket expected' found' =>
          obtain rfl := mismatchedBracket_message_inj hmessage
          rfl
      | _ => exact Code.noConfusion hcode
  | unclosedBracket opened =>
      cases g with
      | unclosedBracket opened' =>
          rw [eq_of_append_toString ((String.append_left_inj "'").mp hmessage)]
      | _ => exact Code.noConfusion hcode
  | _ =>
      cases g with
      | missingSemicolon | invalidFunctionName | textForNumber | numberForText | truthForOther
      | colorForOther | unreachableCode | longFunction | deepNesting => rfl
      | _ => exact Code.noConfusion hcode

end Finding

end TradeScript
