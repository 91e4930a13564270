/-!
# The names that users see

What a listing of the public names shows.
-/

namespace Munch

/-- The public names, in alphabetical order. -/
def publicNames : List String :=
  ["ConfigError", "Cursor", "Diagnostic", "KEYWORDS", "LexConfig", "MinilexError", "Scanner", "Session",
   "SourceLocation", "SourceOpenError", "Token", "TokenType", "__version__", "close_session",
   "get_lex_config", "is_keyword", "lex_config_context", "next_token", "open_session",
   "open_sessions", "reset_lex_config", "set_lex_config", "tokenize", "tokenize_file"]

end Munch
