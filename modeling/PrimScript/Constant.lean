import PrimScript.Value.Basic

/-! The constants that every script can read and none can assign to. -/

namespace PrimScript.Constant

def endOfNotecard : String := "\n\n\n"

def debugChannel : Int32 := 0x7FFFFFFF

def integers : List (String × Int32) :=
  [("TRUE", 1), ("FALSE", 0), ("PUBLIC_CHANNEL", 0), ("DEBUG_CHANNEL", debugChannel),
   ("AGENT", 0x1), ("AGENT_BY_LEGACY_NAME", 0x1), ("AGENT_BY_USERNAME", 0x10), ("ACTIVE", 0x2),
   ("PASSIVE", 0x4), ("SCRIPTED", 0x8), ("TYPE_INVALID", 0), ("TYPE_INTEGER", 1),
   ("TYPE_FLOAT", 2), ("TYPE_STRING", 3), ("TYPE_KEY", 4), ("TYPE_VECTOR", 5),
   ("TYPE_ROTATION", 6), ("STRING_TRIM_HEAD", 1), ("STRING_TRIM_TAIL", 2), ("STRING_TRIM", 3),
   ("LINK_ROOT", 1), ("LINK_SET", -1), ("LINK_ALL_OTHERS", -2), ("LINK_ALL_CHILDREN", -3),
   ("LINK_THIS", -4), ("PERMISSION_DEBIT", 0x2), ("PERMISSION_TAKE_CONTROLS", 0x4),
   ("PERMISSION_TRIGGER_ANIMATION", 0x10), ("PERMISSION_ATTACH", 0x20),
   ("PERMISSION_CHANGE_LINKS", 0x80), ("PERMISSION_TRACK_CAMERA", 0x400),
   ("PERMISSION_CONTROL_CAMERA", 0x800), ("CHANGED_INVENTORY", 0x1), ("CHANGED_COLOR", 0x2),
   ("CHANGED_SHAPE", 0x4), ("CHANGED_SCALE", 0x8), ("CHANGED_TEXTURE", 0x10),
   ("CHANGED_LINK", 0x20), ("CHANGED_ALLOWED_DROP", 0x40), ("CHANGED_OWNER", 0x80),
   ("CHANGED_REGION", 0x100), ("CHANGED_TELEPORT", 0x200), ("CHANGED_REGION_START", 0x400),
   ("DATA_ONLINE", 1), ("DATA_NAME", 2), ("DATA_BORN", 3), ("DATA_RATING", 4),
   ("DATA_PAYINFO", 8), ("HTTP_METHOD", 0), ("HTTP_MIMETYPE", 1), ("HTTP_BODY_MAXLENGTH", 2),
   ("HTTP_VERIFY_CERT", 3), ("HTTP_VERBOSE_THROTTLE", 4), ("HTTP_CUSTOM_HEADER", 5),
   ("HTTP_PRAGMA_NO_CACHE", 6), ("ALL_SIDES", -1)]

def pi : Float := 3.141592653589793

def others : List (String × Value) :=
  [("PI", .float pi), ("TWO_PI", .float 6.283185307179586),
   ("PI_BY_TWO", .float 1.5707963267948966), ("DEG_TO_RAD", .float (pi / 180)),
   ("RAD_TO_DEG", .float (180 / pi)), ("SQRT2", .float 1.4142135623730951),
   ("NULL_KEY", .key Key.null), ("EOF", .string endOfNotecard),
   ("ZERO_VECTOR", .vector Vector3.zero), ("ZERO_ROTATION", .rotation Rotation.identity)]

def all : List (String × Value) := integers.map (fun (name, n) => (name, .integer n)) ++ others

def find? (name : String) : Option Value := (all.find? (·.1 = name)).map (·.2)

end PrimScript.Constant
