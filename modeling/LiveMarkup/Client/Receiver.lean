import LiveMarkup.Text.Word
/-! Turning `this.field` into the client's local variable `field`. -/
namespace LiveMarkup.Client

/-- Removes every `this.` at whose front a word begins. `inWord` tells whether a word character stands
right before the text. -/
def stripFrom : (inWord : Bool) → List Char → List Char
  | _, [] => []
  | false, 't' :: 'h' :: 'i' :: 's' :: '.' :: rest => stripFrom false rest
  | _, c :: rest => c :: stripFrom (Text.isWord c) rest

def stripReceiver (source : String) : String := String.ofList (stripFrom false source.toList)

end LiveMarkup.Client
