namespace RegisterCalculator

inductive StreamError where
  | invalidUtf8
  | outputFull
  | notFound
  | notADirectory
  | isADirectory
  | nameTooLong
  | nulInName
  | other (reason : String)
  deriving DecidableEq

def StreamError.message : StreamError → String
  | invalidUtf8 => "stream did not contain valid UTF-8"
  | outputFull => "output full"
  | notFound => "No such file or directory (os error 2)"
  | notADirectory => "Not a directory (os error 20)"
  | isADirectory => "Is a directory (os error 21)"
  | nameTooLong => "File name too long (os error 36)"
  | nulInName => "file name contained an unexpected NUL byte"
  | other reason => reason

end RegisterCalculator
