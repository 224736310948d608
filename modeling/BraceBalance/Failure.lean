import BraceBalance.FileTree.Error
import BraceBalance.Report.Options
import BraceBalance.Report.Severity

/-!
# Failure — why a check could not be made

One constructor for each cause; `Failure.message` has all the wording.
-/

namespace BraceBalance

/-- What was going on when a path could not be used. -/
inductive Activity where
  | unnamed
  | readingFile
  | accessing (path : Bytes)
  | walking (path : Bytes)
  | makingCacheDirectory
  | creatingCacheFile
  | watching
  deriving DecidableEq

/-- How an activity is named in front of a path's error. -/
def Activity.words : Activity → Bytes
  | unnamed => []
  | readingFile => "error reading file: "
  | accessing path => "error accessing " ++ path ++ ": "
  | walking path => "error walking " ++ path ++ ": "
  | makingCacheDirectory => "failed to create cache directory: "
  | creatingCacheFile => "failed to create cache file: "
  | watching => "error adding directory to watcher: "

/-- Why a check could not be made. -/
inductive Failure where
  | path (activity : Activity) (error : PathError)
  | badOptions (options : Options)
  /-- The cache file holds no record of verdicts, or cannot be read. -/
  | cacheUnreadable (error : Option PathError)
  /-- The settings file is no well-formed document. -/
  | settingsMalformed (path : Bytes)
  /-- The settings file holds a value of the wrong shape, or a key twice. -/
  | settingsMistyped (path : Bytes)
  | settingsSeverity (path text : Bytes)
  | canceled
  | deadlineExceeded
  | alreadyWatching
  | notWatching
  | unknownFormat (name : Bytes)
  | unknownVerdict (code : Int)
  | unknownLevel (text : Bytes)
  | custom (message : Bytes)
  deriving DecidableEq

namespace Failure

/-- What is said of a failure. -/
def message : Failure → Bytes
  | path activity error => activity.words ++ error.message
  | badOptions options => "invalid report options: " ++ options.shown
  | cacheUnreadable none => "failed to load cache: not a cache file"
  | cacheUnreadable (some error) => "failed to load cache: " ++ error.message
  | settingsMalformed file => "error decoding " ++ file ++ ": yaml: document is not well formed"
  | settingsMistyped file => "error decoding " ++ file ++ ": yaml: value of the wrong type"
  | settingsSeverity file text =>
    "error decoding " ++ file ++ ": " ++ Severity.unknownMessage text
  | canceled => "context canceled"
  | deadlineExceeded => "context deadline exceeded"
  | alreadyWatching => "already watching"
  | notWatching => "not watching"
  | unknownFormat name => "unknown output format " ++ name.quoted
  | unknownVerdict code => "unknown verdict kind " ++ Bytes.ofInt code
  | unknownLevel text =>
    "invalid log level " ++ text.quoted ++ ": unrecognized level: " ++ text.quoted
  | custom message => message

end Failure

end BraceBalance
