import Neosurf.CssTokens
import Neosurf.CssBytecode
import Neosurf.CssUnitSpecifier
import Neosurf.GridTemplateParse
import Neosurf.GridTemplateCascade
import Neosurf.TransformParse
import Neosurf.TransformCascade
import Neosurf.GapParse
import Neosurf.BackgroundImageParse
import Neosurf.PlaceContentParse
import Neosurf.ListOwnership
import Neosurf.SelectScalars
import Neosurf.FontFaceLoading
import Neosurf.Win32FontCache
import Neosurf.Win32CacheKeys
import Neosurf.Win32TextOffsets
import Neosurf.Win32CacheEviction
import Neosurf.Win32WideCache
import Neosurf.FontFaceAllocation
import Neosurf.Win32WebFonts
import Neosurf.Win32SplitOffsets
import Neosurf.Win32CachedFonts
