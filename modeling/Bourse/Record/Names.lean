import Bourse.Error.Kind
import Bourse.Json.Codec
import Bourse.Precision

/-! # Names as JSON

Kinds of failures and ways of stating precision are written by their names. -/

namespace Bourse

instance : JsonCodec ErrorKind := JsonCodec.named ErrorKind.name ErrorKind.ofName?

instance : JsonCodec PrecisionMode := JsonCodec.named PrecisionMode.name PrecisionMode.ofName?

end Bourse
